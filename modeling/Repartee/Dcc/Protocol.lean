import Repartee.Dcc.Consent
import Repartee.Dcc.Ports

/-!
# The messages of DCC chats

`dcc/protocol.rs`: an offer, or the answer to a passive one, is a CTCP message with an address, a
port and perhaps a token. How an IPv6 address is written and how a text is read as an address are
parameters.

## Main definitions

- `encodeIp`, `decodeIp`, `buildDccChatCtcp`, `parseDccCtcp`: the messages

## Main results

- `parse_build`: a message that is sent is read as it was meant
- `build_parse`: what is read can be sent again, and is read alike
- `passive_exchange`: the answer to a passive offer reaches who made it
-/

set_option autoImplicit false

namespace Repartee.Dcc

open Store (Host)
open Web (IpAddr Ipv4Addr Ipv6Addr)

/-! ### Words -/

/-- `char::is_ascii_whitespace` -/
def isAsciiWhitespace (c : Char) : Bool :=
  c = ' ' || c = '\t' || c = '\n' || c = '\x0c' || c = '\r'

/-- `split_ascii_whitespace` -/
def splitAsciiWhitespace (s : Str) : List Str :=
  (s.splitOnP isAsciiWhitespace).filter (fun w => decide (w ≠ []))

def IsAsciiWord (w : Str) : Prop := w ≠ [] ∧ ∀ c ∈ w, isAsciiWhitespace c = false

theorem splitAsciiWhitespace_singleton {w : Str} (h : IsAsciiWord w) :
    splitAsciiWhitespace w = [w] := by
  rw [splitAsciiWhitespace, List.splitOnP_eq_singleton h.2]
  simp [h.1]

theorem splitAsciiWhitespace_cons {w : Str} (h : IsAsciiWord w) (rest : Str) :
    splitAsciiWhitespace (w ++ ' ' :: rest) = w :: splitAsciiWhitespace rest := by
  rw [splitAsciiWhitespace, List.splitOnP_append_cons _ _ (by decide),
    List.splitOnP_eq_singleton h.2]
  simp [h.1, splitAsciiWhitespace]

theorem isAsciiWhitespace_of_isWhitespace {c : Char} (h : Text.isWhitespace c = false) :
    isAsciiWhitespace c = false := by
  by_contra hc
  simp only [isAsciiWhitespace, Bool.not_eq_false, Bool.or_eq_true, decide_eq_true_eq] at hc
  rcases hc with (((rfl | rfl) | rfl) | rfl) | rfl <;> revert h <;> decide

theorem isAsciiWord_fmtNat (n : Nat) : IsAsciiWord (fmtNat n) := by
  obtain ⟨hne, hw⟩ := Text.isWord_formatInt n
  exact ⟨hne, fun c hc => isAsciiWhitespace_of_isWhitespace (hw c hc)⟩

/-! ### Addresses -/

/-- How `std::net` writes an IPv6 address, and reads an address. -/
structure IpText where
  display : Ipv6Addr → Str
  parse : Str → Option IpAddr

/-- An IPv6 address is written in hexadecimal groups with colons, and is read back. -/
structure IpText.Faithful (text : IpText) (ip : Ipv6Addr) : Prop where
  reads : text.parse (text.display ip) = some (.v6 ip)
  colon : ':' ∈ text.display ip
  word : IsAsciiWord (text.display ip)

/-- The 32-bit number of an IPv4 address. -/
def v4Number (ip : Ipv4Addr) : BitVec 32 :=
  (ip.a.setWidth 32 <<< 24) ||| (ip.b.setWidth 32 <<< 16) ||| (ip.c.setWidth 32 <<< 8) |||
    ip.d.setWidth 32

def v4OfNumber (n : BitVec 32) : Ipv4Addr :=
  ⟨((n >>> 24) &&& 0xff#32).setWidth 8, ((n >>> 16) &&& 0xff#32).setWidth 8,
    ((n >>> 8) &&& 0xff#32).setWidth 8, (n &&& 0xff#32).setWidth 8⟩

theorem v4OfNumber_v4Number (ip : Ipv4Addr) : v4OfNumber (v4Number ip) = ip := by
  obtain ⟨a, b, c, d⟩ := ip
  rw [v4OfNumber, v4Number, Ipv4Addr.mk.injEq]
  refine ⟨?_, ?_, ?_, ?_⟩
  all_goals
    ext i hi
    simp [BitVec.getElem_and]
    interval_cases i <;> simp

section Messages

variable (text : IpText)

def encodeIp : IpAddr → Str
  | .v4 ip => fmtNat (v4Number ip).toNat
  | .v6 ip => text.display ip

/-- `parse::<u32>()` -/
def parseU32 (s : Str) : Option Nat :=
  match Text.parseInt 0 4294967295 s with
  | .ok n => some n.toNat
  | .error _ => none

/-- `decode_ip`; nobody reads the text of its error. -/
def decodeIp (s : Str) : Option IpAddr :=
  if ':' ∈ s then text.parse s
  else (parseU32 s).map (fun n => .v4 (v4OfNumber (BitVec.ofNat 32 n)))

structure DccCtcpMessage where
  dccType : Str
  addr : IpAddr
  port : Nat
  passiveToken : Option Nat
  deriving DecidableEq

/-- `parse_dcc_ctcp` -/
def parseDccCtcp (body : Str) : Option DccCtcpMessage :=
  match splitAsciiWhitespace body with
  | first :: dccType :: _ :: addr :: port :: rest =>
    if !eqIgnoreAsciiCase first (str "DCC") then none
    else if !eqIgnoreAsciiCase dccType (str "CHAT") then none
    else
      (decodeIp text addr).bind (fun addr => (parseU16 port).map (fun port =>
        ⟨dccType.map Char.toUpper, addr, port, rest.head?.bind parseU32⟩))
  | _ => none

/-- `build_dcc_chat_ctcp` -/
def buildDccChatCtcp (ip : IpAddr) (port : Nat) (token : Option Nat) : Str :=
  match token with
  | none => '\x01' :: str "DCC CHAT CHAT " ++ encodeIp text ip ++ ' ' :: fmtNat port ++ ['\x01']
  | some token =>
    '\x01' :: str "DCC CHAT CHAT " ++ encodeIp text ip ++ ' ' :: fmtNat port ++
      ' ' :: fmtNat token ++ ['\x01']

/-- What the client looks at in a message: its text between the delimiters. -/
def ctcpBody (message : Str) : Option Str :=
  if message.head? = some '\x01' ∧ message.getLast? = some '\x01' ∧ 2 < message.length then
    some (message.drop 1).dropLast
  else none

variable {text}

theorem parseU16_fmtNat {n : Nat} (h : n < 65536) : parseU16 (fmtNat n) = some n := by
  have hparse : Text.parseInt 0 65535 (fmtNat n) = .ok (n : Int) :=
    Text.parseInt_formatInt (by omega) (by omega) (by omega) (by omega)
  rw [parseU16, hparse]
  rfl

theorem parseU32_fmtNat {n : Nat} (h : n < 4294967296) : parseU32 (fmtNat n) = some n := by
  have hparse : Text.parseInt 0 4294967295 (fmtNat n) = .ok (n : Int) :=
    Text.parseInt_formatInt (by omega) (by omega) (by omega) (by omega)
  rw [parseU32, hparse]
  rfl

theorem colon_notMem_fmtNat (n : Nat) : ':' ∉ fmtNat n := by
  intro h
  have hd := Text.toDigits_isDigit (n := n) ':' h
  revert hd
  decide

/-- **An address that is written is read back.** -/
theorem decodeIp_encodeIp {ip : IpAddr} (hv6 : ∀ v6, ip = .v6 v6 → text.Faithful v6) :
    decodeIp text (encodeIp text ip) = some ip ∧ IsAsciiWord (encodeIp text ip) := by
  cases ip with
  | v4 ip =>
    have hread : parseU32 (fmtNat (v4Number ip).toNat) = some (v4Number ip).toNat :=
      parseU32_fmtNat (v4Number ip).isLt
    refine ⟨?_, isAsciiWord_fmtNat _⟩
    rw [encodeIp, decodeIp, if_neg (colon_notMem_fmtNat _), hread, Option.map_some,
      BitVec.ofNat_toNat, BitVec.setWidth_eq, v4OfNumber_v4Number]
  | v6 ip =>
    obtain ⟨hreads, hcolon, hword⟩ := hv6 ip rfl
    exact ⟨by rw [encodeIp, decodeIp, if_pos hcolon, hreads], hword⟩

theorem ctcpBody_wrap {body : Str} (h : body ≠ []) :
    ctcpBody ('\x01' :: body ++ ['\x01']) = some body := by
  have hlength : 0 < body.length := List.length_pos_of_ne_nil h
  rw [ctcpBody, if_pos]
  · simp
  · refine ⟨rfl, List.getLast?_concat, ?_⟩
    rw [List.length_append, List.length_cons, List.length_singleton]
    omega

/-- The words of a message. -/
theorem words_build {ip port : Str} (hip : IsAsciiWord ip) (hport : IsAsciiWord port)
    (rest : Str) :
    splitAsciiWhitespace (str "DCC CHAT CHAT " ++ ip ++ ' ' :: port) =
        [str "DCC", str "CHAT", str "CHAT", ip, port] ∧
      splitAsciiWhitespace (str "DCC CHAT CHAT " ++ ip ++ ' ' :: (port ++ ' ' :: rest)) =
        str "DCC" :: str "CHAT" :: str "CHAT" :: ip :: port :: splitAsciiWhitespace rest := by
  have hword : ∀ w : Str, w ≠ [] → w.all (fun c => !isAsciiWhitespace c) = true →
      IsAsciiWord w := fun w hne hw => ⟨hne, by simpa using hw⟩
  have hdcc : IsAsciiWord (str "DCC") := hword _ (by decide) (by decide)
  have hchat : IsAsciiWord (str "CHAT") := hword _ (by decide) (by decide)
  have hopen : ∀ s : Str, str "DCC CHAT CHAT " ++ s =
      str "DCC" ++ ' ' :: (str "CHAT" ++ ' ' :: (str "CHAT" ++ ' ' :: s)) := fun _ => rfl
  refine ⟨?_, ?_⟩
  · rw [List.append_assoc, hopen, splitAsciiWhitespace_cons hdcc, splitAsciiWhitespace_cons hchat,
      splitAsciiWhitespace_cons hchat, splitAsciiWhitespace_cons hip,
      splitAsciiWhitespace_singleton hport]
  · rw [List.append_assoc, hopen, splitAsciiWhitespace_cons hdcc, splitAsciiWhitespace_cons hchat,
      splitAsciiWhitespace_cons hchat, splitAsciiWhitespace_cons hip,
      splitAsciiWhitespace_cons hport]

theorem parse_of_words {body addr port : Str} {rest : List Str} {ip : IpAddr} {n : Nat}
    (hwords : splitAsciiWhitespace body =
      str "DCC" :: str "CHAT" :: str "CHAT" :: addr :: port :: rest)
    (hip : decodeIp text addr = some ip) (hport : parseU16 port = some n) :
    parseDccCtcp text body = some ⟨str "CHAT", ip, n, rest.head?.bind parseU32⟩ := by
  rw [parseDccCtcp, hwords]
  dsimp only
  rw [if_neg (by decide), if_neg (by decide), hip, hport]
  rfl

/-- **A message is read as it was meant**: its address, its port and its token. -/
theorem parse_build {ip : IpAddr} (hv6 : ∀ v6, ip = .v6 v6 → text.Faithful v6) {port : Nat}
    (hport : port < 65536) {token : Option Nat} (htoken : ∀ t ∈ token, t < 4294967296) :
    (ctcpBody (buildDccChatCtcp text ip port token)).bind (parseDccCtcp text) =
      some ⟨str "CHAT", ip, port, token⟩ := by
  obtain ⟨hip, hword⟩ := decodeIp_encodeIp hv6
  obtain ⟨hplain, -⟩ := words_build hword (isAsciiWord_fmtNat port) []
  cases token with
  | none =>
    have hbody : ctcpBody (buildDccChatCtcp text ip port none) =
        some (str "DCC CHAT CHAT " ++ encodeIp text ip ++ ' ' :: fmtNat port) :=
      ctcpBody_wrap (List.append_ne_nil_of_right_ne_nil _ (List.cons_ne_nil _ _))
    rw [hbody, Option.bind_some, parse_of_words hplain hip (parseU16_fmtNat hport)]
    rfl
  | some token =>
    have hbody : ctcpBody (buildDccChatCtcp text ip port (some token)) =
        some (str "DCC CHAT CHAT " ++ encodeIp text ip ++ ' ' :: (fmtNat port ++
          ' ' :: fmtNat token)) := by
      refine (congrArg ctcpBody ?_).trans (ctcpBody_wrap
        (List.append_ne_nil_of_right_ne_nil _ (List.cons_ne_nil _ _)))
      simp [buildDccChatCtcp]
    obtain ⟨-, hwords⟩ := words_build hword (isAsciiWord_fmtNat port) (fmtNat token)
    rw [hbody, Option.bind_some, parse_of_words hwords hip (parseU16_fmtNat hport),
      splitAsciiWhitespace_singleton (isAsciiWord_fmtNat token)]
    simp [parseU32_fmtNat (htoken token rfl)]

theorem parseU16_lt {s : Str} {n : Nat} (h : parseU16 s = some n) : n < 65536 := by
  rw [parseU16] at h
  split at h
  · rename_i m hm
    have hrange := Text.parseInt_range (by omega) (by omega) hm
    rw [← Option.some.inj h]
    omega
  · cases h

theorem parseU32_lt {s : Str} {n : Nat} (h : parseU32 s = some n) : n < 4294967296 := by
  rw [parseU32] at h
  split at h
  · rename_i m hm
    have hrange := Text.parseInt_range (by omega) (by omega) hm
    rw [← Option.some.inj h]
    omega
  · cases h

/-- What a message says that is read. -/
theorem parse_cases {body : Str} {m : DccCtcpMessage} (h : parseDccCtcp text body = some m) :
    m.dccType = str "CHAT" ∧ m.port < 65536 ∧ ∀ t ∈ m.passiveToken, t < 4294967296 := by
  rw [parseDccCtcp] at h
  split at h
  · rename_i first dccType proto addr port rest hwords
    split at h
    · cases h
    · split at h
      · cases h
      · rename_i hchat
        obtain ⟨ip, -, hbind⟩ := Option.bind_eq_some_iff.mp h
        obtain ⟨n, hn, rfl⟩ := Option.map_eq_some_iff.mp hbind
        refine ⟨?_, parseU16_lt hn, fun t ht => ?_⟩
        · have hlower : dccType.map Char.toLower = (str "CHAT").map Char.toLower := by
            simpa [eqIgnoreAsciiCase] using hchat
          have hupper := congrArg (List.map Char.toUpper) hlower
          rw [List.map_map, List.map_map] at hupper
          have hsame : (Char.toUpper ∘ Char.toLower) = Char.toUpper :=
            funext Char.toUpper_toLower_eq_toUpper
          rw [hsame] at hupper
          exact hupper.trans (by decide)
        · obtain ⟨w, -, hw⟩ := Option.bind_eq_some_iff.mp ht
          exact parseU32_lt hw
  · cases h

/-- **What is read can be sent again, and is read alike**, whatever spaces and cases it came with:
a message that is read is an offer of a chat, with a port and a token that fit. -/
theorem build_parse {body : Str} {m : DccCtcpMessage} (h : parseDccCtcp text body = some m)
    (hv6 : ∀ v6, m.addr = .v6 v6 → text.Faithful v6) :
    m.dccType = str "CHAT" ∧ m.port < 65536 ∧ (∀ t ∈ m.passiveToken, t < 4294967296) ∧
      (ctcpBody (buildDccChatCtcp text m.addr m.port m.passiveToken)).bind
        (parseDccCtcp text) = some m := by
  obtain ⟨htype, hport, htoken⟩ := parse_cases h
  refine ⟨htype, hport, htoken, ?_⟩
  rw [parse_build hv6 hport htoken, ← htype]

/-- For addresses of the old kind only. -/
def ipv4Text : IpText := ⟨fun _ => [], fun _ => none⟩

theorem fakeIp_build_parse :
    str "CHAT" = str "CHAT" ∧ 0 < 65536 ∧ (∀ t ∈ some 42, t < 4294967296) ∧
      (ctcpBody (buildDccChatCtcp ipv4Text passiveFakeIp 0 (some 42))).bind
        (parseDccCtcp ipv4Text) = some ⟨str "CHAT", passiveFakeIp, 0, some 42⟩ :=
  build_parse (m := ⟨str "CHAT", passiveFakeIp, 0, some 42⟩)
    (show parseDccCtcp ipv4Text (str "dcc Chat chat 16843009  0 42") = _ by decide)
    (fun v6 hv => by cases hv)

/-! ### Passive chats -/

/-- The request that a message is, from a nick on a connection. -/
def DccCtcpMessage.request (m : DccCtcpMessage) (connId nick ident host : Str) : Request :=
  ⟨connId, nick, ident, host, m.addr, m.port, m.passiveToken⟩

/-- A passive offer leaves a record with its token. -/
theorem offer_held {h : Host} {c : Client} {env : Surroundings} {connId nick : Str} {token : Nat}
    (hoffer : Effect.offer connId nick (some token) ∈ (c.initiate h env nick true).2) :
    ∃ id r, (c.initiate h env nick true).1.dcc.records.lookup id = some r ∧
      r.passiveToken = some token := by
  rw [Client.initiate] at hoffer ⊢
  split at hoffer
  · cases hoffer
  · rename_i hroom
    rw [if_neg hroom]
    cases hactive : c.active with
    | none =>
      rw [hactive] at hoffer
      cases hoffer
    | some active =>
      rw [hactive] at hoffer
      have hoffer : Effect.offer connId nick (some token) ∈
          [Effect.offer active nick (some (env.random % 64))] := hoffer
      obtain ⟨-, -, htoken⟩ := Effect.offer.inj (List.mem_singleton.mp hoffer)
      refine ⟨_, _, (DccManager.lookup_register _ _).trans (if_pos rfl), ?_⟩
      exact htoken.symm

/-- **A passive chat**: whoever is offered one reads that there is nothing to connect to, and the
token; and once the answer with this token and the address of a listener is back, the client that
holds an offer with the token connects to the listener. -/
theorem passive_exchange (h : Host) {offerer peer : Client} {env : Surroundings} {token : Nat}
    (htoken : token < 4294967296)
    (hheld : ∃ id r, offerer.dcc.records.lookup id = some r ∧ r.passiveToken = some token)
    {ip : IpAddr} (hv6 : ∀ v6, ip = .v6 v6 → text.Faithful v6) {port : Nat} (hpos : 0 < port)
    (hport : port < 65536) (connId nick ident host connId' nick' ident' host' : Str)
    (hidden : Bool) :
    ∃ (offer answer : DccCtcpMessage) (r : DccRecord),
      (ctcpBody (buildDccChatCtcp text passiveFakeIp 0 (some token))).bind (parseDccCtcp text) =
        some offer ∧
      r = peer.requestRecord (offer.request connId nick ident host) ∧
      target r.addr r.port r.passiveToken = none ∧
      (ctcpBody (buildDccChatCtcp text ip port r.passiveToken)).bind (parseDccCtcp text) =
        some answer ∧
      (offerer.handleRequest h env (answer.request connId' nick' ident' host') hidden).2 =
        [.start ⟨connId', nick', some (ip, port), none⟩] := by
  have hfake : ∀ v6, passiveFakeIp = .v6 v6 → text.Faithful v6 := fun v6 hv => by cases hv
  have hbound : ∀ t ∈ some token, t < 4294967296 := fun t ht => Option.some.inj ht ▸ htoken
  obtain ⟨id, r, hr, htok⟩ := hheld
  obtain ⟨e, he⟩ := DccManager.find?_of_lookup env.order
    (p := fun r => decide (r.passiveToken = some token)) hr (decide_eq_true htok)
  refine ⟨_, ⟨str "CHAT", ip, port, some token⟩, _, parse_build hfake (by omega) hbound, rfl, rfl,
    parse_build hv6 hport hbound, ?_⟩
  have hanswered : offerer.answered env
      (DccCtcpMessage.request ⟨str "CHAT", ip, port, some token⟩ connId' nick' ident' host') =
      some e := by
    rw [Client.answered, DccCtcpMessage.request]
    dsimp only
    rw [if_pos hpos, he]
  rw [Client.handleRequest, hanswered]
  rfl

theorem alice_passive_exchange :
    ∃ (offer answer : DccCtcpMessage) (r : DccRecord),
      (ctcpBody (buildDccChatCtcp ipv4Text passiveFakeIp 0 (some 7))).bind
        (parseDccCtcp ipv4Text) = some offer ∧
      r = Client.requestRecord ⟨DccManager.new, none, 0⟩ (offer.request [] [] [] []) ∧
      target r.addr r.port r.passiveToken = none ∧
      (ctcpBody (buildDccChatCtcp ipv4Text passiveFakeIp 6000 r.passiveToken)).bind
        (parseDccCtcp ipv4Text) = some answer ∧
      ((Client.initiate Store.sampleHost ⟨DccManager.new, some (str "libera"), 0⟩ sampleSurroundings
          (str "alice") true).1.handleRequest Store.sampleHost sampleSurroundings
            (answer.request (str "libera") (str "alice") [] []) false).2 =
        [.start ⟨str "libera", str "alice", some (passiveFakeIp, 6000), none⟩] :=
  passive_exchange Store.sampleHost (by omega) (offer_held List.mem_cons_self)
    (fun v6 hv => by cases hv) (by omega) (by omega) [] [] [] [] (str "libera") (str "alice")
    [] [] false

end Messages

end Repartee.Dcc
