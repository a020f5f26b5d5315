import Repartee.Lib.Exec
import Repartee.E2e.Wire
import Repartee.E2e.Sample

/-!
# SASL SCRAM-SHA-256

`irc/sasl_scram.rs` and `run_sasl_scram` of `irc/mod.rs`: the client's half of the exchange, over
every sequence of server messages.

## Main definitions

- `clientFirst`, `clientFinal`, `verifyServer`: the messages of the mechanism
- `runSaslScram`: the exchange
- `ServerProven`: the server has proved that it knows the password before its success numeric

## Main results

- `constantTimeEq_iff`
- `proven_iff_payload`: a successful exchange has proved the server if and only if the server
  sent a payload between the client-final and its success numeric
- `success_without_proof`
-/

set_option autoImplicit false

namespace Repartee

/-- The crates `hmac` and `pbkdf2` beside the ones of the encryption core. -/
structure ScramCrates where
  base : Crates
  hmacSha256 : (key data : List UInt8) → Bytes 32
  pbkdf2 : (password salt : List UInt8) → (rounds : Nat) → Bytes 32

namespace Scram

variable (cr : ScramCrates)

/-! ### Messages -/

def maxIterations : Nat := 100000

/-- `(client_first_bare, full_client_first_message, client_nonce)` for 24 random bytes. -/
def clientFirst (nonceBytes : Bytes 24) (username : Str) : Str × Str × Str :=
  let clientNonce := cr.base.b64Encode nonceBytes.1
  let safeUsername := Text.replace [','] (str "=2C") (Text.replace ['='] (str "=3D") username)
  let clientFirstBare := str "n=" ++ safeUsername ++ str ",r=" ++ clientNonce
  (clientFirstBare, str "n,," ++ clientFirstBare, clientNonce)

/-- The fields of a server-first message. -/
structure ServerFirst where
  nonce : Option Str
  salt : Option Str
  iterations : Option Str

/-- A later field replaces an earlier one of its name. -/
def ServerFirst.scan (f : ServerFirst) (field : Str) : ServerFirst :=
  match Text.stripPrefix (str "r=") field with
  | some value => { f with nonce := some value }
  | none =>
    match Text.stripPrefix (str "s=") field with
    | some value => { f with salt := some value }
    | none =>
      match Text.stripPrefix (str "i=") field with
      | some value => { f with iterations := some value }
      | none => f

def ServerFirst.parse (serverFirst : Str) : ServerFirst :=
  (serverFirst.splitOnP (fun c => c = ',')).foldl ServerFirst.scan ⟨none, none, none⟩

/-- A field that a server-first message has to have. -/
def required (field : Option Str) (err : String) : Except Str Str :=
  match field with
  | some value => .ok value
  | none => .error (str err)

def parseIterations (iterationsStr : Str) : Except Str Nat :=
  match Text.parseInt 0 4294967295 iterationsStr with
  | .error err => .error (str "SCRAM: invalid iteration count: " ++ parseIntErrorText err)
  | .ok n =>
    if n = 0 then .error (str "SCRAM: iteration count must be > 0")
    else if n > maxIterations then
      .error (str "SCRAM: iteration count " ++ fmtInt n ++ str " exceeds maximum " ++
        fmtNat maxIterations)
    else .ok n.toNat

/-- The client-final message and the signature that the server has to show. -/
def clientFinal (serverFirst clientFirstBare clientNonce password : Str) :
    Except Str (Str × List UInt8) := do
  let fields := ServerFirst.parse serverFirst
  let combinedNonce ← required fields.nonce "SCRAM: server-first missing nonce (r=)"
  let saltB64 ← required fields.salt "SCRAM: server-first missing salt (s=)"
  let iterationsStr ← required fields.iterations "SCRAM: server-first missing iterations (i=)"
  if !Text.startsWith combinedNonce clientNonce then
    throw (str "SCRAM: server nonce does not start with client nonce")
  let salt ← (cr.base.b64Decode saltB64).mapError (fun e => str "SCRAM: invalid base64 salt: " ++ e)
  let iterCount ← parseIterations iterationsStr
  let saltedPassword := cr.pbkdf2 (Utf8.encode password) salt iterCount
  let clientKey := cr.hmacSha256 saltedPassword.1 (Utf8.encode (str "Client Key"))
  let storedKey := cr.base.sha256 clientKey.1
  let clientFinalWithoutProof := str "c=biws,r=" ++ combinedNonce
  let authMessage := clientFirstBare ++ str "," ++ serverFirst ++ str "," ++ clientFinalWithoutProof
  let clientSignature := cr.hmacSha256 storedKey.1 (Utf8.encode authMessage)
  let clientProof := List.zipWith (fun a b => a ^^^ b) clientKey.1 clientSignature.1
  let serverKey := cr.hmacSha256 saltedPassword.1 (Utf8.encode (str "Server Key"))
  let serverSignature := cr.hmacSha256 serverKey.1 (Utf8.encode authMessage)
  return (clientFinalWithoutProof ++ str ",p=" ++ cr.base.b64Encode clientProof, serverSignature.1)

def constantTimeEq (a b : List UInt8) : Bool :=
  if a.length ≠ b.length then false
  else (List.zip a b).foldl (fun diff p => diff ||| (p.1 ^^^ p.2)) 0 = 0

/-- Whether a server-final message shows the expected signature. -/
def verifyServer (serverFinal : Str) (expectedSignature : List UInt8) : Bool :=
  match Text.stripPrefix (str "v=") serverFinal with
  | none => false
  | some sigB64 =>
    match cr.base.b64Decode sigB64 with
    | .ok sigBytes => constantTimeEq sigBytes expectedSignature
    | .error _ => false

/-- Cut a payload, which is ASCII, into chunks of 400; a full last chunk is followed by `+`. -/
def chunkAuthenticate (payload : Str) : List Str :=
  if payload.isEmpty then [str "+"]
  else
    let chunks := payload.toChunks 400
    if (chunks.getLast?).any (fun last => last.length = 400) then chunks ++ [str "+"] else chunks

/-! ### The exchange -/

/-- The numerics that the exchange looks at. -/
inductive Numeric where
  | saslSuccess
  | saslFail
  | saslTooLong
  | saslAbort
  | other
  deriving DecidableEq

/-- What the stream yields: messages, an error of the transport, or the passing of the timeout
of the first wait. -/
inductive Item where
  | authenticate (param : Str)
  | response (n : Numeric)
  | other
  | failed (err : Str)
  | elapsed
  deriving DecidableEq

/-- The stream, and the parameters of the AUTHENTICATE commands sent. -/
structure Io where
  incoming : List Item
  sent : List Str

/-- Wait for `AUTHENTICATE +`. -/
def awaitAuthenticatePlus : List Item → Except Str (Unit × List Item)
  | [] => .error (str "connection closed waiting for AUTHENTICATE +")
  | .failed err :: _ => .error err
  | .elapsed :: _ => .error (str "SASL authentication timed out waiting for AUTHENTICATE +")
  | .authenticate param :: rest =>
    if param = str "+" then .ok ((), rest) else awaitAuthenticatePlus rest
  | .response .saslFail :: _ => .error (str "SASL authentication failed")
  | .response .saslAbort :: _ => .error (str "SASL authentication aborted")
  | .response .saslTooLong :: _ => .error (str "SASL message too long")
  | _ :: rest => awaitAuthenticatePlus rest

/-- A base64 payload as text. -/
def decodePayload (what : String) (param : Str) : Except Str Str :=
  match cr.base.b64Decode param with
  | .error err => .error (str ("SCRAM: invalid base64 in " ++ what ++ ": ") ++ err)
  | .ok decoded =>
    match Utf8.decode decoded with
    | some text => .ok text
    | none => .error (str ("SCRAM: non-UTF-8 " ++ what ++ ": ") ++ cr.base.utf8Error decoded)

/-- Wait for the server-first message. -/
def awaitServerFirst : List Item → Except Str (Str × List Item)
  | [] => .error (str "SASL SCRAM-SHA-256: connection closed waiting for server-first")
  | .failed err :: _ => .error err
  | .authenticate param :: rest =>
    if param ≠ str "+" then (decodePayload cr "server-first" param).map (fun text => (text, rest))
    else awaitServerFirst rest
  | .response .saslFail :: _ => .error (str "SASL SCRAM-SHA-256 authentication failed")
  | .response .saslAbort :: _ => .error (str "SASL SCRAM-SHA-256 authentication aborted")
  | _ :: rest => awaitServerFirst rest

/-- Receive the server-final and wait for the outcome. -/
def awaitOutcome (expectedServerSig : List UInt8) :
    (serverVerified : Bool) → List Item → Except Str (Unit × List Item)
  | _, [] => .error (str "SASL SCRAM-SHA-256: connection closed unexpectedly")
  | _, .failed err :: _ => .error err
  | serverVerified, .authenticate param :: rest =>
    if !serverVerified && param ≠ str "+" then
      match decodePayload cr "server-final" param with
      | .error err => .error err
      | .ok serverFinal =>
        if verifyServer cr serverFinal expectedServerSig then
          awaitOutcome expectedServerSig true rest
        else .error (str "SCRAM: server signature verification failed — possible MITM")
    else awaitOutcome expectedServerSig serverVerified rest
  -- the success numeric is taken whether or not the server has been verified
  | _, .response .saslSuccess :: rest => .ok ((), rest)
  | _, .response .saslFail :: _ => .error (str "SASL SCRAM-SHA-256 authentication failed")
  | _, .response .saslTooLong :: _ => .error (str "SASL SCRAM-SHA-256 message too long")
  | _, .response .saslAbort :: _ => .error (str "SASL SCRAM-SHA-256 authentication aborted")
  | serverVerified, _ :: rest => awaitOutcome expectedServerSig serverVerified rest

abbrev Sasl := EStateM Str Io

/-- Wait on the stream. -/
def receive {α : Type} (wait : List Item → Except Str (α × List Item)) : Sasl α := do
  let (a, rest) ← Exec.query (fun io => wait io.incoming)
  modify (fun io => { io with incoming := rest })
  return a

/-- Send an AUTHENTICATE command; `refuses n` is the error of the sender for the `n`-th one. -/
def sendAuthenticate (refuses : Nat → Option Str) (param : Str) : Sasl Unit :=
  Exec.update (fun io =>
    match refuses io.sent.length with
    | some err => .error err
    | none => .ok { io with sent := io.sent ++ [param] })

variable (refuses : Nat → Option Str)

/-- Authenticate with a user name and a password. -/
def runSaslScram (nonceBytes : Bytes 24) (saslUser saslPass : Str) : Sasl Unit := do
  sendAuthenticate refuses (str "SCRAM-SHA-256")
  receive awaitAuthenticatePlus
  let first := clientFirst cr nonceBytes saslUser
  (chunkAuthenticate (cr.base.b64Encode (Utf8.encode first.2.1))).forM (sendAuthenticate refuses)
  let serverFirst ← receive (awaitServerFirst cr)
  let final ← Exec.query (fun _ => clientFinal cr serverFirst first.1 first.2.2 saslPass)
  (chunkAuthenticate (cr.base.b64Encode (Utf8.encode final.1))).forM (sendAuthenticate refuses)
  receive (awaitOutcome cr final.2 false)

/-! ### Signatures -/

theorem foldl_or_eq_zero_iff (l : List (UInt8 × UInt8)) (diff : UInt8) :
    l.foldl (fun diff p => diff ||| (p.1 ^^^ p.2)) diff = 0 ↔
      diff = 0 ∧ ∀ p ∈ l, p.1 = p.2 := by
  induction l generalizing diff with
  | nil => simp
  | cons p l ih =>
    rw [List.foldl_cons, ih, List.forall_mem_cons, UInt8.or_eq_zero_iff, UInt8.xor_eq_zero_iff,
      and_assoc]

/-- The comparison is equality. -/
theorem constantTimeEq_iff {a b : List UInt8} : constantTimeEq a b = true ↔ a = b := by
  unfold constantTimeEq
  by_cases hlen : a.length = b.length
  · rw [if_neg (by simpa using hlen), decide_eq_true_eq, foldl_or_eq_zero_iff]
    constructor
    · rintro ⟨-, hall⟩
      apply List.ext_getElem hlen
      intro i ha hb
      exact hall (a[i], b[i]) (by
        rw [← List.getElem_zip (h := by rw [List.length_zip]; omega)]
        exact List.getElem_mem _)
    · rintro rfl
      refine ⟨rfl, fun p hp => ?_⟩
      obtain ⟨i, hi, rfl⟩ := List.mem_iff_getElem.mp hp
      rw [List.getElem_zip]
  · rw [if_pos (by simpa using hlen)]
    simp only [Bool.false_eq_true, false_iff]
    rintro rfl
    exact hlen rfl

/-! ### What a successful exchange has seen -/

/-- The payload of an AUTHENTICATE command; `+` stands for none. -/
def Item.payload? : Item → Option Str
  | .authenticate param => if param = str "+" then none else some param
  | _ => none

/-- What the server sends before its success numeric. -/
def beforeSuccess (items : List Item) : List Item :=
  items.takeWhile (fun item => item ≠ .response .saslSuccess)

/-- A payload that decodes to a server-final with the expected signature. -/
def Proves (expectedServerSig : List UInt8) (param : Str) : Prop :=
  ∃ serverFinal, decodePayload cr "server-final" param = .ok serverFinal ∧
    verifyServer cr serverFinal expectedServerSig = true

/-- The signature computed for the exchange, and what the server sends after the client-final. -/
def lastPhase (nonceBytes : Bytes 24) (saslUser saslPass : Str) (incoming : List Item) :
    Except Str (List UInt8 × List Item) := do
  let (_, rest) ← awaitAuthenticatePlus incoming
  let first := clientFirst cr nonceBytes saslUser
  let (serverFirst, rest) ← awaitServerFirst cr rest
  let final ← clientFinal cr serverFirst first.1 first.2.2 saslPass
  return (final.2, rest)

/-- Before its success numeric, the server has sent a payload that proves it. -/
def ServerProven (nonceBytes : Bytes 24) (saslUser saslPass : Str) (incoming : List Item) : Prop :=
  ∃ expected items, lastPhase cr nonceBytes saslUser saslPass incoming = .ok (expected, items) ∧
    ∃ item ∈ beforeSuccess items, ∃ param, item.payload? = some param ∧ Proves cr expected param

/-- Before its success numeric, the server has sent a payload after the client-final. -/
def SendsPayload (nonceBytes : Bytes 24) (saslUser saslPass : Str) (incoming : List Item) : Prop :=
  ∃ expected items, lastPhase cr nonceBytes saslUser saslPass incoming = .ok (expected, items) ∧
    ∃ item ∈ beforeSuccess items, item.payload?.isSome = true

variable {cr refuses}

theorem incoming_of_sendAuthenticate {io io' : Io} {param : Str} {u : Unit}
    (h : (sendAuthenticate refuses param).run io = .ok u io') : io'.incoming = io.incoming := by
  have hu := Exec.run_update_eq_ok_iff.mp h
  cases hr : refuses io.sent.length with
  | some err => simp [hr] at hu
  | none =>
    simp only [hr, Except.ok.injEq] at hu
    rw [← hu]

theorem incoming_of_sendAll {params : List Str} {io io' : Io} {u : PUnit}
    (h : (params.forM (sendAuthenticate refuses)).run io = .ok u io') :
    io'.incoming = io.incoming := by
  induction params generalizing io with
  | nil =>
    cases h
    rfl
  | cons param params ih =>
    obtain ⟨v, io₁, hsend, hrest⟩ := Exec.bind_eq_ok_iff.mp h
    exact (ih hrest).trans (incoming_of_sendAuthenticate hsend)

theorem run_receive_eq_ok_iff {α : Type} {wait : List Item → Except Str (α × List Item)}
    {io io' : Io} {a : α} :
    (receive wait).run io = .ok a io' ↔
      ∃ rest, wait io.incoming = .ok (a, rest) ∧ io' = { io with incoming := rest } := by
  unfold receive
  rw [Exec.bind_eq_ok_iff]
  constructor
  · rintro ⟨⟨b, rest⟩, io₁, hquery, h⟩
    obtain ⟨hwait, rfl⟩ := Exec.run_query_eq_ok_iff.mp hquery
    cases h
    exact ⟨rest, hwait, rfl⟩
  · rintro ⟨rest, hwait, rfl⟩
    exact ⟨(a, rest), io, Exec.run_query_eq_ok_iff.mpr ⟨hwait, rfl⟩, rfl⟩

/-- A wait that ends hands its message and the rest of the stream on. -/
theorem returns_receive_bind {α β : Type} {wait : List Item → Except Str (α × List Item)}
    {f : α → Sasl β} {incoming rest : List Item} {sent : List Str} {a : α}
    (h : wait incoming = .ok (a, rest)) :
    Exec.Returns (receive wait >>= f) ⟨incoming, sent⟩ ↔ Exec.Returns (f a) ⟨rest, sent⟩ :=
  Exec.returns_bind_of_ok ((run_receive_eq_ok_iff).mpr ⟨rest, h, rfl⟩)

/-- A successful exchange has reached its last phase, and has succeeded there. -/
theorem lastPhase_of_success {nonceBytes : Bytes 24} {saslUser saslPass : Str} {io io' : Io}
    (h : (runSaslScram cr refuses nonceBytes saslUser saslPass).run io = .ok () io') :
    ∃ expected items rest,
      lastPhase cr nonceBytes saslUser saslPass io.incoming = .ok (expected, items) ∧
      awaitOutcome cr expected false items = .ok ((), rest) := by
  unfold runSaslScram at h
  obtain ⟨u, io₁, hsend, h⟩ := Exec.bind_eq_ok_iff.mp h
  obtain ⟨u₁, io₂, hplus, h⟩ := Exec.bind_eq_ok_iff.mp h
  obtain ⟨rest₁, hwait₁, rfl⟩ := (run_receive_eq_ok_iff).mp hplus
  obtain ⟨u₂, io₃, hfirst, h⟩ := Exec.bind_eq_ok_iff.mp h
  obtain ⟨serverFirst, io₄, hserver, h⟩ := Exec.bind_eq_ok_iff.mp h
  obtain ⟨rest₂, hwait₂, rfl⟩ := (run_receive_eq_ok_iff).mp hserver
  obtain ⟨final, io₅, hfinal, h⟩ := Exec.bind_eq_ok_iff.mp h
  obtain ⟨hclient, rfl⟩ := Exec.run_query_eq_ok_iff.mp hfinal
  obtain ⟨u₃, io₆, hlast, h⟩ := Exec.bind_eq_ok_iff.mp h
  obtain ⟨rest₃, hwait₃, -⟩ := (run_receive_eq_ok_iff).mp h
  rw [incoming_of_sendAuthenticate hsend] at hwait₁
  rw [incoming_of_sendAll hfirst] at hwait₂
  rw [incoming_of_sendAll hlast] at hwait₃
  refine ⟨final.2, rest₂, rest₃, ?_, hwait₃⟩
  simp only [lastPhase, hwait₁, hwait₂, hclient, bind, Except.bind]
  rfl

/-- Neither a payload nor the success numeric: the wait goes on. -/
theorem awaitOutcome_skip {expected : List UInt8} {verified : Bool} {head : Item}
    {items : List Item} {r : Unit × List Item} (hpayload : head.payload? = none)
    (hsuccess : head ≠ .response .saslSuccess)
    (h : awaitOutcome cr expected verified (head :: items) = .ok r) :
    awaitOutcome cr expected verified items = .ok r := by
  cases head with
  | authenticate param =>
    have hplus : param = str "+" := by
      by_contra hne
      simp [Item.payload?, hne] at hpayload
    rw [awaitOutcome, if_neg (by simp [hplus])] at h
    exact h
  | response n => cases n <;> first | exact h | simp [awaitOutcome] at h hsuccess
  | other => exact h
  | failed err => simp [awaitOutcome] at h
  | elapsed => exact h

/-- A payload that an unverified wait takes is a proof. -/
theorem proves_of_payload {expected : List UInt8} {head : Item} {items : List Item} {param : Str}
    {r : Unit × List Item} (hpayload : head.payload? = some param)
    (h : awaitOutcome cr expected false (head :: items) = .ok r) : Proves cr expected param := by
  cases head with
  | authenticate param' =>
    have hne : param' ≠ str "+" := by
      rintro rfl
      simp [Item.payload?] at hpayload
    obtain rfl : param' = param := by simpa [Item.payload?, hne] using hpayload
    rw [awaitOutcome, if_pos (by simp [hne])] at h
    cases hdec : decodePayload cr "server-final" param' with
    | error err => simp [hdec] at h
    | ok serverFinal =>
      simp only [hdec] at h
      by_cases hver : verifyServer cr serverFinal expected = true
      · exact ⟨serverFinal, hdec, hver⟩
      · simp [hver] at h
  | response n => simp [Item.payload?] at hpayload
  | other => simp [Item.payload?] at hpayload
  | failed err => simp [Item.payload?] at hpayload
  | elapsed => simp [Item.payload?] at hpayload

theorem beforeSuccess_cons {head : Item} {items : List Item}
    (h : head ≠ .response .saslSuccess) :
    beforeSuccess (head :: items) = head :: beforeSuccess items :=
  List.takeWhile_cons_of_pos (by simpa using h)

/-- A successful wait has taken the first payload before the success numeric for a proof. -/
theorem exists_proof_of_awaitOutcome {expected : List UInt8} {items : List Item}
    {r : Unit × List Item} (h : awaitOutcome cr expected false items = .ok r)
    (hpayload : ∃ item ∈ beforeSuccess items, item.payload?.isSome = true) :
    ∃ item ∈ beforeSuccess items, ∃ param, item.payload? = some param ∧
      Proves cr expected param := by
  obtain ⟨item, hitem, hsome⟩ := hpayload
  induction items with
  | nil => simp [beforeSuccess] at hitem
  | cons head items ih =>
    by_cases hsuccess : head = .response .saslSuccess
    · simp [beforeSuccess, hsuccess] at hitem
    rw [beforeSuccess_cons hsuccess] at hitem ⊢
    cases hhead : head.payload? with
    | some param => exact ⟨head, List.mem_cons_self, param, hhead, proves_of_payload hhead h⟩
    | none =>
      have hmem : item ∈ beforeSuccess items := by
        rcases List.mem_cons.mp hitem with rfl | hmem
        · simp [hhead] at hsome
        · exact hmem
      obtain ⟨found, hfound, hproof⟩ := ih (awaitOutcome_skip hhead hsuccess h) hmem
      exact ⟨found, List.mem_cons_of_mem head hfound, hproof⟩

/-- A successful exchange has proved the server if and only if the server has sent a payload
between the client-final and its success numeric. -/
theorem proven_iff_payload {nonceBytes : Bytes 24} {saslUser saslPass : Str} {io : Io}
    (h : Exec.Returns (runSaslScram cr refuses nonceBytes saslUser saslPass) io) :
    ServerProven cr nonceBytes saslUser saslPass io.incoming ↔
      SendsPayload cr nonceBytes saslUser saslPass io.incoming := by
  constructor
  · rintro ⟨expected, items, hlast, item, hitem, param, hparam, -⟩
    exact ⟨expected, items, hlast, item, hitem, by simp [hparam]⟩
  · rintro ⟨expected, items, hlast, hpayload⟩
    obtain ⟨u, io', hrun⟩ := h
    obtain ⟨expected', items', rest, hlast', hout⟩ := lastPhase_of_success hrun
    rw [hlast] at hlast'
    obtain ⟨rfl, rfl⟩ := Prod.mk.inj (Except.ok.inj hlast')
    exact ⟨expected, items, hlast, exists_proof_of_awaitOutcome hout hpayload⟩

/-! ### Sample exchanges -/

theorem run_sendAll (hsend : ∀ n, refuses n = none) (params : List Str) (io : Io) :
    (params.forM (sendAuthenticate refuses)).run io =
      .ok ⟨⟩ { io with sent := io.sent ++ params } := by
  induction params generalizing io with
  | nil =>
    rw [List.append_nil]
    rfl
  | cons param params ih =>
    have hone : (sendAuthenticate refuses param).run io =
        .ok ⟨⟩ { io with sent := io.sent ++ [param] } :=
      Exec.run_update_of_ok (by simp [hsend])
    show (sendAuthenticate refuses param >>= fun _ => params.forM _).run io = _
    rw [Exec.bind_of_ok hone, ih]
    simp

/-- Where the sender takes every command, an exchange whose last phase succeeds succeeds. -/
theorem returns_of_lastPhase {nonceBytes : Bytes 24} {saslUser saslPass : Str} {io : Io}
    {expected : List UInt8} {items : List Item} {r : Unit × List Item}
    (hsend : ∀ n, refuses n = none)
    (hlast : lastPhase cr nonceBytes saslUser saslPass io.incoming = .ok (expected, items))
    (hout : awaitOutcome cr expected false items = .ok r) :
    Exec.Returns (runSaslScram cr refuses nonceBytes saslUser saslPass) io := by
  obtain ⟨⟨u, rest₁⟩, hwait₁, hlast⟩ := Exec.except_bind_ok hlast
  obtain ⟨⟨serverFirst, rest₂⟩, hwait₂, hlast⟩ := Exec.except_bind_ok hlast
  obtain ⟨final, hclient, hlast⟩ := Exec.except_bind_ok hlast
  obtain ⟨rfl, rfl⟩ := Prod.mk.inj (Except.ok.inj hlast)
  have hstart : (sendAuthenticate refuses (str "SCRAM-SHA-256")).run io =
      .ok ⟨⟩ { io with sent := io.sent ++ [str "SCRAM-SHA-256"] } :=
    Exec.run_update_of_ok (by simp [hsend])
  have hquery : ∀ io : Io, (Exec.query (fun _ => clientFinal cr serverFirst
      (clientFirst cr nonceBytes saslUser).1 (clientFirst cr nonceBytes saslUser).2.2
      saslPass)).run io = .ok final io :=
    fun io => Exec.run_query_eq_ok_iff.mpr ⟨hclient, rfl⟩
  unfold runSaslScram
  rw [Exec.returns_bind_of_ok hstart, returns_receive_bind hwait₁]
  dsimp only
  rw [Exec.returns_bind_of_ok (run_sendAll hsend _ _), returns_receive_bind hwait₂,
    Exec.returns_bind_of_ok (hquery _),
    Exec.returns_bind_of_ok (run_sendAll hsend _ _)]
  exact Exec.returns_of_ok ((run_receive_eq_ok_iff).mpr ⟨r.2, hout, rfl⟩)

/-- What the server encodes is decoded. -/
theorem decodePayload_encode (h : cr.base.Codecs) (what : String) (text : Str) :
    decodePayload cr what (cr.base.b64Encode (Utf8.encode text)) = .ok text := by
  rw [decodePayload, h.b64_decode]
  simp only [Utf8.decode_encode]

end Scram

namespace Sample

open Scram

/-- Stand-ins for the keyed hash and the key derivation. -/
def scramCrates : ScramCrates where
  base := sample
  hmacSha256 key data := last32 (key ++ data)
  pbkdf2 password salt _ := last32 (password ++ salt)

/-- A server-first message that answers the client nonce of 24 zero bytes. -/
def serverFirst : Str :=
  str "r=AAAAAAAAAAAAAAAAAAAAAAAAAAAAAAAAAAAAAAAAAAAAAAAA,s=,i=4096"

/-- A server that answers with a server-first message, and then with `last`. -/
def scramServer (last : List Item) : Io :=
  ⟨.authenticate (str "+") ::
    .authenticate (sample.b64Encode (Utf8.encode serverFirst)) :: last, []⟩

/-- The message that the server's signature is about. -/
def authMessage : Str :=
  str "n=me,r=AAAAAAAAAAAAAAAAAAAAAAAAAAAAAAAAAAAAAAAAAAAAAAAA," ++ serverFirst ++
    str ",c=biws,r=AAAAAAAAAAAAAAAAAAAAAAAAAAAAAAAAAAAAAAAAAAAAAAAA"

/-- The server's signature. -/
def serverSignature : List UInt8 := (last32 (Utf8.encode authMessage)).1

theorem clientFinal_sample :
    ((clientFinal scramCrates serverFirst (clientFirst scramCrates (Bytes.fill 24 0) (str "me")).1
      (clientFirst scramCrates (Bytes.fill 24 0) (str "me")).2.2 (str "pw")).map Prod.snd).toOption =
      some serverSignature := by
  decide +kernel

theorem lastPhase_sample (last : List Item) :
    lastPhase scramCrates (Bytes.fill 24 0) (str "me") (str "pw") (scramServer last).incoming =
      .ok (serverSignature, last) := by
  have hne : sample.b64Encode (Utf8.encode serverFirst) ≠ str "+" := by decide +kernel
  have hfirst : awaitServerFirst scramCrates
      (.authenticate (sample.b64Encode (Utf8.encode serverFirst)) :: last) =
        .ok (serverFirst, last) := by
    have hdec : decodePayload scramCrates "server-first"
        (sample.b64Encode (Utf8.encode serverFirst)) = .ok serverFirst :=
      decodePayload_encode sample_codecs "server-first" serverFirst
    rw [awaitServerFirst, if_pos hne, hdec]
    rfl
  have hfinal := clientFinal_sample
  unfold lastPhase
  cases hclient : clientFinal scramCrates serverFirst
      (clientFirst scramCrates (Bytes.fill 24 0) (str "me")).1
      (clientFirst scramCrates (Bytes.fill 24 0) (str "me")).2.2 (str "pw") with
  | error err =>
    rw [hclient] at hfinal
    simp [Except.map, Except.toOption] at hfinal
  | ok final =>
    rw [hclient] at hfinal
    have hsig : final.2 = serverSignature := by
      simpa [Except.map, Except.toOption] using hfinal
    have hplus : awaitAuthenticatePlus (scramServer last).incoming =
        .ok ((), .authenticate (sample.b64Encode (Utf8.encode serverFirst)) :: last) := by
      rw [scramServer, awaitAuthenticatePlus, if_pos rfl]
    simp only [hplus, hfirst, hclient, hsig, bind, Except.bind]
    rfl

/-- The server-final message that shows the signature. -/
def serverFinal : Str := str "v=" ++ sample.b64Encode serverSignature

/-- A server that shows its signature. -/
def authenticServer : Io :=
  scramServer [.authenticate (sample.b64Encode (Utf8.encode serverFinal)), .response .saslSuccess]

theorem awaitOutcome_authentic :
    awaitOutcome scramCrates serverSignature false
      [.authenticate (sample.b64Encode (Utf8.encode serverFinal)), .response .saslSuccess] =
        .ok ((), []) := by
  have hne : sample.b64Encode (Utf8.encode serverFinal) ≠ str "+" := by decide +kernel
  have hdec : decodePayload scramCrates "server-final"
      (sample.b64Encode (Utf8.encode serverFinal)) = .ok serverFinal :=
    decodePayload_encode sample_codecs "server-final" serverFinal
  have hver : verifyServer scramCrates serverFinal serverSignature = true := by
    have hsig : scramCrates.base.b64Decode (sample.b64Encode serverSignature) =
        .ok serverSignature := sample_codecs.b64_decode serverSignature
    rw [verifyServer, serverFinal, Text.stripPrefix_append]
    simp only [hsig]
    exact (constantTimeEq_iff).mpr rfl
  rw [awaitOutcome, if_pos (by simpa using hne), hdec]
  simp only [hver, if_true]
  rfl

end Sample

namespace Scram

open Repartee.Sample in
theorem proven_iff_payload_authentic :
    ServerProven scramCrates (Bytes.fill 24 0) (str "me") (str "pw") authenticServer.incoming := by
  have hreturns := returns_of_lastPhase (fun _ => rfl) (lastPhase_sample _) awaitOutcome_authentic
  have hpayload : SendsPayload scramCrates (Bytes.fill 24 0) (str "me") (str "pw")
      authenticServer.incoming :=
    ⟨_, _, lastPhase_sample _, _, List.mem_cons_self, by decide +kernel⟩
  exact (@proven_iff_payload scramCrates (fun _ => none) _ _ _ _ hreturns).mpr hpayload

open Repartee.Sample in
/-- A server that never shows a signature is taken for authentic. -/
theorem success_without_proof :
    ¬ (Exec.Returns
        (runSaslScram scramCrates (fun _ => none) (Bytes.fill 24 0) (str "me") (str "pw"))
        (scramServer [.response .saslSuccess]) →
      ServerProven scramCrates (Bytes.fill 24 0) (str "me") (str "pw")
        (scramServer [.response .saslSuccess]).incoming) := by
  intro hclaim
  have hreturns := returns_of_lastPhase (fun _ => rfl) (lastPhase_sample [.response .saslSuccess])
    (show awaitOutcome scramCrates serverSignature false [.response .saslSuccess] = .ok ((), [])
      from rfl)
  obtain ⟨expected, items, hlast, item, hitem, -⟩ := hclaim hreturns
  rw [lastPhase_sample] at hlast
  obtain ⟨-, rfl⟩ := Prod.mk.inj (Except.ok.inj hlast)
  simp [beforeSuccess] at hitem

end Scram

end Repartee
