import Repartee.Lib.Base64
import Repartee.Lib.Chunks
import Repartee.Irc.Sasl

/-!
# AUTHENTICATE lines

The credential messages of `run_sasl_plain` and `run_sasl_scram`, and a server that reads them: it
concatenates parameters until one is shorter than 400 bytes. Over `run_sasl_scram` this is about
every sequence of server messages and every sender.

## Main definitions

- `receiveAuthenticate`, `ReadAs`: the server
- `runSaslPlain`: the exchange with a password in the clear
- `Delivers`: what an exchange sends can be read

## Main results

- `receiveAuthenticate_chunks`: what the server reads of the chunks of a message
- `delivers_runSaslScram`, `delivers_runSaslPlain_iff`: the two exchanges
- `credentials_are_read_iff`
-/

set_option autoImplicit false

namespace Repartee.Scram

open Utf8 (byteLen byteLen_append byteLen_of_ascii)

/-! ### The server -/

/-- Read parameters until the first one that is shorter than 400 bytes; `+` stands for nothing. A
longer parameter is refused. -/
def receiveAuthenticate : List Str → Option (Str × List Str)
  | [] => none
  | param :: params =>
    let piece := if param = str "+" then [] else param
    if byteLen param < 400 then some (piece, params)
    else if byteLen param = 400 then
      (receiveAuthenticate params).map (fun q => (piece ++ q.1, q.2))
    else none

/-- Lines that are read as some messages, one after the other. -/
def ReadAs : (lines messages : List Str) → Prop
  | lines, [] => lines = []
  | lines, m :: ms => ∃ rest, receiveAuthenticate lines = some (m, rest) ∧ ReadAs rest ms

/-- What is documented of an encoder for the standard alphabet with padding: ASCII characters, four
for every three bytes. -/
structure EncodesBase64 (encode : List UInt8 → Str) : Prop where
  ascii : ∀ bytes, ∀ c ∈ encode bytes, c.toNat < 128
  length : ∀ bytes, (encode bytes).length = 4 * ((bytes.length + 2) / 3)

/-! ### PLAIN -/

/-- Wait for 903 (success) or 904/905/906 (failure). -/
def awaitPlainOutcome : List Item → Except Str (Unit × List Item)
  | [] => .error (str "SASL authentication: connection closed unexpectedly")
  | .failed err :: _ => .error err
  | .response .saslSuccess :: rest => .ok ((), rest)
  | .response .saslFail :: _ => .error (str "SASL authentication failed")
  | .response .saslTooLong :: _ => .error (str "SASL message too long")
  | .response .saslAbort :: _ => .error (str "SASL authentication aborted")
  | _ :: rest => awaitPlainOutcome rest

/-- `authzid\0authcid\0password` -/
def authString (saslUser saslPass : Str) : Str :=
  saslUser ++ Char.ofNat 0 :: (saslUser ++ Char.ofNat 0 :: saslPass)

variable (cr : ScramCrates) (refuses : Nat → Option Str)

/-- Authenticate with a user name and a password in the clear. -/
def runSaslPlain (saslUser saslPass : Str) : Sasl Unit := do
  sendAuthenticate refuses (str "PLAIN")
  receive awaitAuthenticatePlus
  sendAuthenticate refuses (cr.base.b64Encode (Utf8.encode (authString saslUser saslPass)))
  receive awaitPlainOutcome

/-! ### What is sent -/

/-- The sender refuses the next line, or all that was sent is the name of the mechanism, and then
lines that a server reads as messages of the exchange. -/
def Delivered (sent : List Str) (mechanism : Str) (messages : List Str → Prop)
    (sent' : List Str) : Prop :=
  (refuses sent'.length).isSome = true ∨
    ∃ lines ms, sent' = sent ++ mechanism :: lines ∧ ReadAs lines ms ∧ messages ms

/-- So it is, however an exchange ends. -/
def Delivers (mechanism : Str) (exchange : Sasl Unit) (messages : List Str → Prop) : Prop :=
  ∀ io, Delivered refuses io.sent mechanism messages (Exec.final exchange io).sent

/-- The credential message of PLAIN. -/
def PlainMessages (saslUser saslPass : Str) (ms : List Str) : Prop :=
  ms = [] ∨ ms = [cr.base.b64Encode (Utf8.encode (authString saslUser saslPass))]

/-- The credential messages of SCRAM: the client-first, and a client-final. -/
def ScramMessages (nonceBytes : Bytes 24) (saslUser saslPass : Str) (ms : List Str) : Prop :=
  let first := clientFirst cr nonceBytes saslUser
  let encoded := cr.base.b64Encode (Utf8.encode first.2.1)
  ms = [] ∨ ms = [encoded] ∨ ∃ serverFirst final,
    clientFinal cr serverFirst first.1 first.2.2 saslPass = .ok final ∧
      ms = [encoded, cr.base.b64Encode (Utf8.encode final.1)]

/-! ### Chunks -/

/-- The last chunk is a plus sign, which stands for nothing. -/
def EndsInLonePlus (payload : Str) : Prop :=
  payload.length % 400 = 1 ∧ payload.getLast? = some '+'

instance (payload : Str) : Decidable (EndsInLonePlus payload) :=
  inferInstanceAs (Decidable (_ ∧ _))

variable {payload : Str}

theorem chunkAuthenticate_of_le (hne : payload ≠ []) (hlen : payload.length ≤ 400) :
    chunkAuthenticate payload =
      if payload.length = 400 then [payload, str "+"] else [payload] := by
  have hempty : payload.isEmpty = false := List.isEmpty_eq_false_iff.mpr hne
  rw [chunkAuthenticate, hempty, List.toChunks_of_le hne hlen]
  simp

theorem chunkAuthenticate_of_lt (hlen : 400 < payload.length) :
    chunkAuthenticate payload = payload.take 400 :: chunkAuthenticate (payload.drop 400) := by
  have hne : payload ≠ [] := List.ne_nil_of_length_pos (by omega)
  have hdrop : payload.drop 400 ≠ [] := by
    refine List.ne_nil_of_length_pos ?_
    rw [List.length_drop]
    omega
  have hchunks : (payload.drop 400).toChunks 400 ≠ [] := by
    by_cases hle : (payload.drop 400).length ≤ 400
    · rw [List.toChunks_of_le hdrop hle]
      exact List.cons_ne_nil _ _
    · rw [List.toChunks_of_lt (by decide) (Nat.lt_of_not_le hle)]
      exact List.cons_ne_nil _ _
  have hlast : (payload.toChunks 400).getLast? = ((payload.drop 400).toChunks 400).getLast? := by
    rw [List.toChunks_of_lt (by decide) hlen, List.getLast?_cons,
      List.getLast?_eq_some_getLast hchunks]
    rfl
  unfold chunkAuthenticate
  rw [List.isEmpty_eq_false_iff.mpr hne, List.isEmpty_eq_false_iff.mpr hdrop]
  dsimp only
  rw [hlast, List.toChunks_of_lt (by decide) hlen]
  simp only [Bool.false_eq_true, if_false]
  split_ifs <;> rfl

/-- **Induction along the chunks of a message.** -/
theorem chunks_induction {motive : Str → Prop} (nil : motive [])
    (last : ∀ p, p ≠ [] → p.length ≤ 400 → motive p)
    (more : ∀ p, 400 < p.length → motive (p.drop 400) → motive p) (payload : Str) :
    motive payload := by
  induction hn : payload.length using Nat.strongRecOn generalizing payload with
  | _ n ih =>
    subst hn
    by_cases hne : payload = []
    · exact hne ▸ nil
    · by_cases hle : payload.length ≤ 400
      · exact last payload hne hle
      · refine more payload (Nat.lt_of_not_le hle) (ih (payload.drop 400).length ?_ _ rfl)
        rw [List.length_drop]
        omega

theorem byteLen_le_of_mem_chunks (hascii : ∀ c ∈ payload, c.toNat < 128) :
    ∀ chunk ∈ chunkAuthenticate payload, byteLen chunk ≤ 400 := by
  have hplus : byteLen (str "+") ≤ 400 := by decide
  induction payload using chunks_induction with
  | nil =>
    intro chunk hchunk
    obtain rfl := List.mem_singleton.mp hchunk
    exact hplus
  | last p hne hlen =>
    have hp : byteLen p ≤ 400 := by rwa [byteLen_of_ascii hascii]
    rw [chunkAuthenticate_of_le hne hlen]
    split_ifs
    · simp [hp, hplus]
    · simp [hp]
  | more p hlen ih =>
    rw [chunkAuthenticate_of_lt hlen, List.forall_mem_cons]
    refine ⟨?_, ih (fun c hc => hascii c (List.mem_of_mem_drop hc))⟩
    rw [byteLen_of_ascii (fun c hc => hascii c (List.mem_of_mem_take hc)), List.length_take]
    exact Nat.min_le_left _ _

theorem receive_plus (params : List Str) :
    receiveAuthenticate (str "+" :: params) = some ([], params) := rfl

theorem receive_of_lt {param : Str} (hne : param ≠ str "+") (hlen : byteLen param < 400)
    (params : List Str) : receiveAuthenticate (param :: params) = some (param, params) := by
  rw [receiveAuthenticate, if_neg hne, if_pos hlen]

theorem receive_of_eq {param : Str} (hlen : byteLen param = 400) (params : List Str) :
    receiveAuthenticate (param :: params) =
      (receiveAuthenticate params).map (fun q => (param ++ q.1, q.2)) := by
  have hne : param ≠ str "+" := by
    rintro rfl
    exact absurd hlen (by decide)
  rw [receiveAuthenticate, if_neg hne, if_neg (by omega), if_pos hlen]

/-- A single chunk that stands for nothing is a plus sign. -/
theorem endsInLonePlus_iff_of_lt (hlen : payload.length < 400) :
    EndsInLonePlus payload ↔ payload = str "+" := by
  constructor
  · rintro ⟨hone, hlast⟩
    rw [Nat.mod_eq_of_lt hlen] at hone
    obtain ⟨c, rfl⟩ := List.length_eq_one_iff.mp hone
    exact congrArg (fun d => [d]) (Option.some.inj hlast)
  · rintro rfl
    exact ⟨rfl, rfl⟩

/-- What the server reads of the chunks of a message: the message, but for a last chunk that stands
for nothing. -/
theorem receiveAuthenticate_chunks (hascii : ∀ c ∈ payload, c.toNat < 128) (more : List Str) :
    receiveAuthenticate (chunkAuthenticate payload ++ more) =
      some (if EndsInLonePlus payload then payload.dropLast else payload, more) := by
  induction payload using chunks_induction with
  | nil => rfl
  | last p hne hlen =>
    have hbytes := byteLen_of_ascii hascii
    rw [chunkAuthenticate_of_le hne hlen]
    by_cases hfull : p.length = 400
    · have hlone : ¬ EndsInLonePlus p := fun h => by
        have hone := h.1
        rw [hfull] at hone
        exact absurd hone (by decide)
      rw [if_pos hfull, if_neg hlone, List.cons_append, receive_of_eq (hbytes.trans hfull),
        List.singleton_append, receive_plus, Option.map_some, List.append_nil]
    · have hlt : p.length < 400 := Nat.lt_of_le_of_ne hlen hfull
      rw [if_neg hfull, List.singleton_append]
      by_cases hplus : p = str "+"
      · rw [if_pos ((endsInLonePlus_iff_of_lt hlt).mpr hplus), hplus, receive_plus]
        rfl
      · rw [if_neg (fun h => hplus ((endsInLonePlus_iff_of_lt hlt).mp h)),
          receive_of_lt hplus (hbytes ▸ hlt)]
  | more p hlen ih =>
    have htake : byteLen (p.take 400) = 400 := by
      rw [byteLen_of_ascii (fun c hc => hascii c (List.mem_of_mem_take hc)), List.length_take]
      exact Nat.min_eq_left (Nat.le_of_lt hlen)
    have hdrop : p.drop 400 ≠ [] := by
      refine List.ne_nil_of_length_pos ?_
      rw [List.length_drop]
      omega
    have hsame : EndsInLonePlus (p.drop 400) ↔ EndsInLonePlus p := by
      have hmod : (p.length - 400) % 400 = p.length % 400 := by omega
      rw [EndsInLonePlus, EndsInLonePlus, List.length_drop, hmod, List.getLast?_drop,
        if_neg (Nat.not_le.mpr hlen)]
    rw [chunkAuthenticate_of_lt hlen, List.cons_append, receive_of_eq htake,
      ih (fun c hc => hascii c (List.mem_of_mem_drop hc)), Option.map_some]
    dsimp only
    simp only [hsame]
    split_ifs
    · rw [← List.dropLast_append_of_ne_nil hdrop, List.take_append_drop]
    · rw [List.take_append_drop]

/-! ### The exchanges -/

variable {cr refuses}

section Steps

variable {α : Type} {P : List Str → Prop} {io : Io}

theorem final_sendAuthenticate_bind {param : Str} {f : PUnit → Sasl Unit}
    (hstop : (refuses io.sent.length).isSome = true → P io.sent)
    (hgo : P (Exec.final (f ⟨⟩) ⟨io.incoming, io.sent ++ [param]⟩).sent) :
    P (Exec.final (sendAuthenticate refuses param >>= f) io).sent := by
  cases hr : refuses io.sent.length with
  | some err =>
    have hrun : (sendAuthenticate refuses param).run io = .error err io := by
      rw [sendAuthenticate, Exec.run_update, hr]
    rw [Exec.final_bind_of_error hrun]
    exact hstop (by rw [hr]; rfl)
  | none =>
    have hrun : (sendAuthenticate refuses param).run io =
        .ok ⟨⟩ ⟨io.incoming, io.sent ++ [param]⟩ := by
      rw [sendAuthenticate, Exec.run_update, hr]
    rw [Exec.final_bind_of_ok hrun]
    exact hgo

theorem final_sendAll_bind {params : List Str} {f : PUnit → Sasl Unit}
    (hstop : ∀ sent, (refuses sent.length).isSome = true → P sent)
    (hgo : P (Exec.final (f ⟨⟩) ⟨io.incoming, io.sent ++ params⟩).sent) :
    P (Exec.final (params.forM (sendAuthenticate refuses) >>= f) io).sent := by
  induction params generalizing io with
  | nil =>
    rw [List.append_nil] at hgo
    exact hgo
  | cons param params ih =>
    have hcons : (param :: params).forM (sendAuthenticate refuses) =
        sendAuthenticate refuses param >>= fun _ => params.forM (sendAuthenticate refuses) := rfl
    rw [hcons, bind_assoc]
    refine final_sendAuthenticate_bind (hstop _) (ih ?_)
    rw [List.append_assoc, List.singleton_append]
    exact hgo

theorem final_receive_bind {wait : List Item → Except Str (α × List Item)} {f : α → Sasl Unit}
    (hstop : P io.sent)
    (hgo : ∀ a rest, P (Exec.final (f a) ⟨rest, io.sent⟩).sent) :
    P (Exec.final (receive wait >>= f) io).sent := by
  cases hwait : wait io.incoming with
  | error err =>
    have hquery : (Exec.query (fun io : Io => wait io.incoming)).run io = .error err io :=
      Exec.run_query_of_error hwait
    have hrun : (receive wait).run io = .error err io := Exec.bind_of_error hquery
    rw [Exec.final_bind_of_error hrun]
    exact hstop
  | ok q =>
    have hrun : (receive wait).run io = .ok q.1 ⟨q.2, io.sent⟩ :=
      run_receive_eq_ok_iff.mpr ⟨q.2, hwait, rfl⟩
    rw [Exec.final_bind_of_ok hrun]
    exact hgo q.1 q.2

theorem final_query_bind {g : Io → Except Str α} {f : α → Sasl Unit} (hstop : P io.sent)
    (hgo : ∀ a, g io = .ok a → P (Exec.final (f a) io).sent) :
    P (Exec.final (Exec.query g >>= f) io).sent := by
  cases hg : g io with
  | error err =>
    rw [Exec.final_bind_of_error (Exec.run_query_of_error hg)]
    exact hstop
  | ok a =>
    rw [Exec.final_bind_of_ok (Exec.run_query_of_ok hg)]
    exact hgo a hg

theorem sent_final_receive (wait : List Item → Except Str (Unit × List Item)) (io : Io) :
    (Exec.final (receive wait) io).sent = io.sent := by
  rw [← bind_pure (receive wait)]
  exact final_receive_bind (P := fun sent => sent = io.sent) rfl (fun a rest => rfl)

end Steps

/-- An encoded message does not end in a chunk that stands for nothing. -/
theorem not_endsInLonePlus (h64 : EncodesBase64 cr.base.b64Encode) (bytes : List UInt8) :
    ¬ EndsInLonePlus (cr.base.b64Encode bytes) := by
  rintro ⟨hone, -⟩
  rw [h64.length] at hone
  omega

/-- The chunks of an encoded message are read as the message. -/
theorem receive_encoded (h64 : EncodesBase64 cr.base.b64Encode) (bytes : List UInt8)
    (more : List Str) :
    receiveAuthenticate (chunkAuthenticate (cr.base.b64Encode bytes) ++ more) =
      some (cr.base.b64Encode bytes, more) := by
  rw [receiveAuthenticate_chunks (h64.ascii bytes), if_neg (not_endsInLonePlus h64 bytes)]

/-- **SCRAM is chunked**: whatever the server sends, the credential messages can be read. -/
theorem delivers_runSaslScram (h64 : EncodesBase64 cr.base.b64Encode)
    (refuses : Nat → Option Str) (nonceBytes : Bytes 24) (saslUser saslPass : Str) :
    Delivers refuses (str "SCRAM-SHA-256")
      (runSaslScram cr refuses nonceBytes saslUser saslPass)
      (ScramMessages cr nonceBytes saslUser saslPass) := by
  intro io
  have hstop : ∀ sent : List Str, (refuses sent.length).isSome = true →
      Delivered refuses io.sent (str "SCRAM-SHA-256")
        (ScramMessages cr nonceBytes saslUser saslPass) sent := fun _ h => .inl h
  have hfirst : Delivered refuses io.sent (str "SCRAM-SHA-256")
      (ScramMessages cr nonceBytes saslUser saslPass) (io.sent ++ [str "SCRAM-SHA-256"] ++
        chunkAuthenticate (cr.base.b64Encode
          (Utf8.encode (clientFirst cr nonceBytes saslUser).2.1))) := by
    refine .inr ⟨chunkAuthenticate _, [_], List.append_assoc _ _ _, ?_, .inr (.inl rfl)⟩
    have hread := receive_encoded h64
      (Utf8.encode (clientFirst cr nonceBytes saslUser).2.1) []
    rw [List.append_nil] at hread
    exact ⟨[], hread, rfl⟩
  unfold runSaslScram
  dsimp only
  refine final_sendAuthenticate_bind (hstop _) (final_receive_bind ?_ (fun _ rest => ?_))
  · exact .inr ⟨[], [], rfl, rfl, .inl rfl⟩
  refine final_sendAll_bind hstop (final_receive_bind hfirst (fun serverFirst rest => ?_))
  refine final_query_bind hfirst (fun final hfinal => final_sendAll_bind hstop ?_)
  rw [sent_final_receive]
  have hread := receive_encoded h64 (Utf8.encode final.1) []
  rw [List.append_nil] at hread
  refine .inr ⟨chunkAuthenticate (cr.base.b64Encode
      (Utf8.encode (clientFirst cr nonceBytes saslUser).2.1)) ++
    chunkAuthenticate (cr.base.b64Encode (Utf8.encode final.1)),
    [cr.base.b64Encode (Utf8.encode (clientFirst cr nonceBytes saslUser).2.1),
      cr.base.b64Encode (Utf8.encode final.1)], ?_,
    ⟨_, receive_encoded h64 _ _, [], hread, rfl⟩, .inr (.inr ⟨serverFirst, final, hfinal, rfl⟩)⟩
  rw [List.append_assoc, List.append_assoc]
  rfl

theorem length_authString (saslUser saslPass : Str) :
    (Utf8.encode (authString saslUser saslPass)).length =
      2 * byteLen saslUser + byteLen saslPass + 2 := by
  have hcons : ∀ s : Str, byteLen (Char.ofNat 0 :: s) = 1 + byteLen s := fun s => rfl
  rw [Utf8.length_encode, authString, byteLen_append, hcons, byteLen_append, hcons]
  omega

/-- PLAIN is not: its message can be read exactly when it is shorter than a chunk. -/
theorem delivers_runSaslPlain_iff (h64 : EncodesBase64 cr.base.b64Encode)
    (saslUser saslPass : Str) :
    (∀ refuses, Delivers refuses (str "PLAIN") (runSaslPlain cr refuses saslUser saslPass)
      (PlainMessages cr saslUser saslPass)) ↔ 2 * byteLen saslUser + byteLen saslPass ≤ 295 := by
  have hlen : byteLen (cr.base.b64Encode (Utf8.encode (authString saslUser saslPass))) < 400 ↔
      2 * byteLen saslUser + byteLen saslPass ≤ 295 := by
    rw [byteLen_of_ascii (h64.ascii _), h64.length, length_authString]
    omega
  have hne : cr.base.b64Encode (Utf8.encode (authString saslUser saslPass)) ≠ str "+" := by
    intro heq
    have h := congrArg List.length heq
    rw [h64.length] at h
    have hone : (str "+").length = 1 := rfl
    omega
  rw [← hlen]
  constructor
  · intro h
    by_contra hlong
    have hsent : (Exec.final (runSaslPlain cr (fun _ => none) saslUser saslPass)
        ⟨[.authenticate (str "+")], []⟩).sent = [str "PLAIN",
          cr.base.b64Encode (Utf8.encode (authString saslUser saslPass))] := rfl
    have hdelivered := h (fun _ => none) ⟨[.authenticate (str "+")], []⟩
    rw [Delivered, hsent] at hdelivered
    rcases hdelivered with hrefused | ⟨lines, ms, hlines, hread, rfl | rfl⟩
    · exact nomatch hrefused
    · obtain rfl : lines = [] := hread
      exact nomatch hlines
    · obtain ⟨rest, hread, -⟩ := hread
      rw [← (List.cons.inj hlines).2, receiveAuthenticate, if_neg hlong] at hread
      split_ifs at hread
      exact nomatch hread
  · intro hshort refuses io
    unfold runSaslPlain
    refine final_sendAuthenticate_bind (P := Delivered refuses io.sent (str "PLAIN")
      (PlainMessages cr saslUser saslPass)) (fun h => .inl h)
      (final_receive_bind ?_ (fun _ rest => ?_))
    · exact .inr ⟨[], [], rfl, rfl, .inl rfl⟩
    refine final_sendAuthenticate_bind (fun h => .inl h) ?_
    rw [sent_final_receive]
    exact .inr ⟨[_], [_], List.append_assoc _ _ _, ⟨[], receive_of_lt hne hshort [], rfl⟩, .inr rfl⟩

/-- The chunks of a payload are at most 400 bytes long, and the server reads the payload from them
and has consumed them then. -/
def Reversible (payload : Str) : Prop :=
  (∀ chunk ∈ chunkAuthenticate payload, byteLen chunk ≤ 400) ∧
    receiveAuthenticate (chunkAuthenticate payload) = some (payload, [])

theorem reversible_iff (hascii : ∀ c ∈ payload, c.toNat < 128) :
    Reversible payload ↔ ¬ EndsInLonePlus payload := by
  have hread := receiveAuthenticate_chunks hascii []
  rw [List.append_nil] at hread
  rw [Reversible, hread]
  by_cases hlone : EndsInLonePlus payload
  · rw [if_pos hlone]
    refine iff_of_false (fun h => ?_) (not_not.mpr hlone)
    have hlen := congrArg List.length (Prod.mk.inj (Option.some.inj h.2)).1
    have hone := hlone.1
    rw [List.length_dropLast] at hlen
    omega
  · rw [if_neg hlone]
    exact iff_of_true ⟨byteLen_le_of_mem_chunks hascii, rfl⟩ hlone

/-- **Credentials are read**: a payload can be recovered from its chunks, and whatever a server and
a sender do, PLAIN and SCRAM send lines that can be read, exactly when the payload does not end in a
lone plus sign and the credentials of PLAIN fit in one line. -/
theorem credentials_are_read_iff (h64 : EncodesBase64 cr.base.b64Encode) {payload : Str}
    (hascii : ∀ c ∈ payload, c.toNat < 128) (nonceBytes : Bytes 24) (saslUser saslPass : Str) :
    (Reversible payload ∧
      (∀ refuses, Delivers refuses (str "PLAIN") (runSaslPlain cr refuses saslUser saslPass)
        (PlainMessages cr saslUser saslPass)) ∧
      ∀ refuses, Delivers refuses (str "SCRAM-SHA-256")
        (runSaslScram cr refuses nonceBytes saslUser saslPass)
        (ScramMessages cr nonceBytes saslUser saslPass)) ↔
      ¬ EndsInLonePlus payload ∧ 2 * byteLen saslUser + byteLen saslPass ≤ 295 := by
  rw [reversible_iff hascii, delivers_runSaslPlain_iff h64]
  have hscram := fun refuses => delivers_runSaslScram h64 refuses nonceBytes saslUser saslPass
  exact ⟨fun h => ⟨h.1, h.2.1⟩, fun h => ⟨h.1, h.2, hscram⟩⟩

/-! ### Examples -/

/-- The crates with the standard encoding. -/
def standardCrates : ScramCrates where
  base := { sample with b64Encode := Base64.encode }
  hmacSha256 := Sample.scramCrates.hmacSha256
  pbkdf2 := Sample.scramCrates.pbkdf2

theorem encodesBase64_standard : EncodesBase64 standardCrates.base.b64Encode where
  ascii := Base64.ascii_encode
  length := Base64.length_encode

theorem short_credentials_are_read :
    Reversible (Base64.encode (Utf8.encode (authString (str "me") (str "pw")))) ∧
      (∀ refuses, Delivers refuses (str "PLAIN")
        (runSaslPlain standardCrates refuses (str "me") (str "pw"))
        (PlainMessages standardCrates (str "me") (str "pw"))) ∧
      ∀ refuses, Delivers refuses (str "SCRAM-SHA-256")
        (runSaslScram standardCrates refuses (Bytes.fill 24 0) (str "me") (str "pw"))
        (ScramMessages standardCrates (Bytes.fill 24 0) (str "me") (str "pw")) :=
  (credentials_are_read_iff encodesBase64_standard (Base64.ascii_encode _)
    (Bytes.fill 24 0) (str "me") (str "pw")).mpr
      ⟨not_endsInLonePlus encodesBase64_standard
        (Utf8.encode (authString (str "me") (str "pw"))), by decide⟩

/-- A password of 294 characters: the credentials of PLAIN are a line of exactly 400 bytes, and the
server waits for the next chunk. -/
theorem long_password_is_not_read :
    ¬ ∀ refuses, Delivers refuses (str "PLAIN")
      (runSaslPlain standardCrates refuses (str "a") (List.replicate 294 'x'))
      (PlainMessages standardCrates (str "a") (List.replicate 294 'x')) := by
  rw [delivers_runSaslPlain_iff encodesBase64_standard]
  have huser : byteLen (str "a") = 1 := rfl
  have hpass : byteLen (List.replicate 294 'x') = 294 := by
    rw [byteLen_of_ascii, List.length_replicate]
    intro c hc
    rw [List.eq_of_mem_replicate hc]
    decide
  omega

end Repartee.Scram
