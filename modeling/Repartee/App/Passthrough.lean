import Repartee.App.Input
import Repartee.E2e.Encryption
import Repartee.E2e.Sample

/-!
# Cleartext on an encrypted conversation

What `e2e_encrypt_or_passthrough` returns for a conversation whose context has encryption
enabled, and when that is ciphertext.

## Main definitions

- `keyringContext`: the context of a conversation
- `OnlyCiphertext`: nothing but lines of the encryption is returned
- `StaysSecret`: what this needs

## Main results

- `onlyCiphertext_iff`
- `long_text_leaks`: a text of more than `MAX_CHUNKS` chunks is returned in the clear
-/

set_option autoImplicit false

namespace Repartee

open E2eManager Exec

variable (cr : Crates) (e : Env)

/-- The context that encryption is looked up under: the channel, the pseudochannel of a query's
peer, or the bare name of a query whose peer has no handle yet. -/
def AppState.keyringContext (st : AppState) (bufferId bufferName : Str) (bufferType : BufferType)
    (captured : Option Str) : Str :=
  match bufferType, st.peerHandleOf bufferId captured with
  | .query, some peerHandle => contextKey bufferName peerHandle
  | _, _ => bufferName

/-- A context has an enabled configuration. -/
def HasE2e (k : Keyring) (context : Str) : Prop :=
  ∃ cfg, k.channels.get? context = some cfg ∧ cfg.enabled = true

/-- A conversation that messages can be sent to. -/
def BufferType.Sendable (t : BufferType) : Prop := t = .channel ∨ t = .query

/-- A line that the encryption of a text returned, which has been run from `mgr` and has left its
core in the state. -/
def IsCiphertext (mgr : E2eManager) (context text : Str) (st : AppState) (wire : Str) : Prop :=
  ∃ lines mgr', (encryptOutgoing cr e context text).run mgr = .ok lines mgr' ∧
    st.e2eManager = some { mgr' with pendingRekeySends := [] } ∧ wire ∈ lines

/-- What goes out is refused, or consists of lines of the encryption of the text. -/
def OnlyCiphertext (mgr : E2eManager) (context text : Str)
    (out : Option (List Str × Str) × AppState) : Prop :=
  out.1 = none ∨ ∃ wires plainEcho, out.1 = some (wires, plainEcho) ∧
    ∀ wire ∈ wires, IsCiphertext cr e mgr context text out.2 wire

/-- What it takes for a text to stay secret: the configuration can be read, and the text can be
encrypted, unless the handle of the peer is unknown (then it is refused). A blank text has no
lines. -/
def StaysSecret (st : AppState) (mgr : E2eManager) (bufferId bufferName : Str)
    (bufferType : BufferType) (text : Str) (captured : Option Str) : Prop :=
  Blank messageMaxBytes text ∨
    e.fault .getChannelConfig = none ∧
      (bufferType = .query ∧ st.peerHandleOf bufferId captured = none ∨
        CanEncrypt cr e mgr (st.keyringContext bufferId bufferName bufferType captured) text)

variable {cr e}

theorem encryptOrPassthrough_channel {st : AppState} {mgr : E2eManager} {bufferId bufferName : Str}
    {text : Str} {captured : Option Str} (hmgr : st.e2eManager = some mgr)
    (htext : bypassesE2e text = false) :
    e2eEncryptOrPassthrough cr e st bufferId bufferName .channel text captured =
      encryptInContext cr e st mgr bufferId bufferName text := by
  simp [e2eEncryptOrPassthrough, htext, hmgr]

theorem encryptOrPassthrough_query {st : AppState} {mgr : E2eManager} {bufferId bufferName : Str}
    {text peerHandle : Str} {captured : Option Str} (hmgr : st.e2eManager = some mgr)
    (htext : bypassesE2e text = false)
    (hpeer : st.peerHandleOf bufferId captured = some peerHandle) :
    e2eEncryptOrPassthrough cr e st bufferId bufferName .query text captured =
      encryptInContext cr e st mgr bufferId (contextKey bufferName peerHandle) text := by
  simp [e2eEncryptOrPassthrough, htext, hmgr, hpeer]

theorem e2eEnabled_of_hasE2e {k : Keyring} {context : Str} (h : HasE2e k context) :
    e2eEnabled e k context = decide (e.fault .getChannelConfig = none) := by
  obtain ⟨cfg, hcfg, hen⟩ := h
  unfold e2eEnabled Keyring.getChannelConfig Env.exec
  cases e.fault .getChannelConfig with
  | none => simp [hcfg, hen]
  | some err => simp

/-- Where the encryption has failed, nothing is ciphertext. -/
theorem not_isCiphertext_of_error {st : AppState} {mgr mgr' : E2eManager} {context text : Str}
    {err : E2eError} (h : (encryptOutgoing cr e context text).run mgr = .error err mgr')
    (wire : Str) : ¬ IsCiphertext cr e mgr context text st wire := by
  rintro ⟨lines, m, hok, -⟩
  simp [h] at hok

/-- Where nothing is ciphertext, only a blank text has no plaintext
lines. -/
theorem onlyCiphertext_passthrough_iff {st : AppState} {mgr : E2eManager} {context text : Str}
    (h : ∀ wire, ¬ IsCiphertext cr e mgr context text st wire) :
    OnlyCiphertext cr e mgr context text (plainPassthrough text, st) ↔
      Blank messageMaxBytes text := by
  rw [← splitIrcMessage_eq_nil_iff]
  constructor
  · rintro (hnone | ⟨wires, plainEcho, hout, hwires⟩)
    · simp [plainPassthrough] at hnone
    · obtain ⟨rfl, -⟩ := Prod.mk.inj (Option.some.inj hout)
      apply List.eq_nil_iff_forall_not_mem.mpr
      intro wire hwire
      exact h wire (hwires wire hwire)
  · intro hnil
    refine .inr ⟨_, _, rfl, fun wire hwire => ?_⟩
    rw [hnil] at hwire
    simp at hwire

/-- An encryption moves the core on. -/
theorem core_ne_of_encryptOutgoing {mgr mgr' : E2eManager} {context text : Str}
    {lines : List Str} (h : (encryptOutgoing cr e context text).run mgr = .ok lines mgr') :
    mgr ≠ { mgr' with pendingRekeySends := [] } := by
  intro heq
  have hlt := draws_lt_of_encryptOutgoing h
  exact absurd (congrArg E2eManager.draws heq) (Nat.ne_of_lt hlt)

/-- Where the core has not been moved on, nothing is ciphertext. -/
theorem not_isCiphertext_of_unmoved {st : AppState} {mgr : E2eManager} {context text : Str}
    (hmgr : st.e2eManager = some mgr) (wire : Str) :
    ¬ IsCiphertext cr e mgr context text st wire := by
  rintro ⟨lines, mgr', hrun, hst, -⟩
  rw [hmgr] at hst
  exact core_ne_of_encryptOutgoing hrun (Option.some.inj hst)

/-- A passthrough without an encryption lets out plaintext. -/
theorem onlyCiphertext_unread_iff {st : AppState} {mgr : E2eManager} {context text : Str}
    (hmgr : st.e2eManager = some mgr) :
    OnlyCiphertext cr e mgr context text (plainPassthrough text, st) ↔
      Blank messageMaxBytes text :=
  onlyCiphertext_passthrough_iff (not_isCiphertext_of_unmoved hmgr)

/-- An enabled context lets out ciphertext if and only if its configuration can be read and the
text can be encrypted. -/
theorem onlyCiphertext_encryptInContext_iff {st : AppState} {mgr : E2eManager}
    {bufferId context text : Str} (hmgr : st.e2eManager = some mgr)
    (hen : HasE2e mgr.keyring context) :
    OnlyCiphertext cr e mgr context text (encryptInContext cr e st mgr bufferId context text) ↔
      Blank messageMaxBytes text ∨
        e.fault .getChannelConfig = none ∧ CanEncrypt cr e mgr context text := by
  unfold encryptInContext
  rw [e2eEnabled_of_hasE2e hen]
  by_cases hf : e.fault .getChannelConfig = none
  swap
  · rw [if_neg (by simpa using hf), onlyCiphertext_unread_iff hmgr]
    simp [hf]
  rw [if_pos (by simpa using hf), ← returns_encryptOutgoing_iff, Returns]
  cases hrun : (encryptOutgoing cr e context text).run mgr with
  | ok wires mgr' =>
    refine iff_of_true (.inr ⟨wires, text, rfl, fun wire hwire => ?_⟩) (.inr ⟨hf, _, _, rfl⟩)
    exact ⟨wires, mgr', hrun, rfl, hwire⟩
  | error err mgr' =>
    dsimp only
    rw [onlyCiphertext_passthrough_iff (not_isCiphertext_of_error hrun)]
    simp [hf]

/-- What goes out for a context is ciphertext altogether, or no line is. -/
theorem onlyCiphertext_encryptInContext_of_one {st : AppState} {mgr : E2eManager}
    {bufferId context text wire : Str} (hmgr : st.e2eManager = some mgr)
    (hwire : IsCiphertext cr e mgr context text
      (encryptInContext cr e st mgr bufferId context text).2 wire) :
    OnlyCiphertext cr e mgr context text
      (encryptInContext cr e st mgr bufferId context text) := by
  unfold encryptInContext at hwire ⊢
  by_cases hen : e2eEnabled e mgr.keyring context
  swap
  · rw [if_neg hen] at hwire
    exact absurd hwire (not_isCiphertext_of_unmoved hmgr wire)
  rw [if_pos hen] at hwire ⊢
  cases hrun : (encryptOutgoing cr e context text).run mgr with
  | ok lines mgr' => exact .inr ⟨lines, text, rfl, fun _ hw => ⟨lines, mgr', hrun, rfl, hw⟩⟩
  | error err mgr' =>
    rw [hrun] at hwire
    exact absurd hwire (not_isCiphertext_of_error hrun wire)

/-- On a conversation with encryption enabled, a text is let out as ciphertext or refused if and
only if the configuration can be read and the text can be encrypted. -/
theorem onlyCiphertext_iff {st : AppState} {mgr : E2eManager} {bufferId bufferName : Str}
    {bufferType : BufferType} {text : Str} {captured : Option Str}
    (hmgr : st.e2eManager = some mgr) (htype : bufferType.Sendable)
    (hen : HasE2e mgr.keyring (st.keyringContext bufferId bufferName bufferType captured))
    (htext : bypassesE2e text = false) :
    OnlyCiphertext cr e mgr (st.keyringContext bufferId bufferName bufferType captured) text
        (e2eEncryptOrPassthrough cr e st bufferId bufferName bufferType text captured) ↔
      StaysSecret cr e st mgr bufferId bufferName bufferType text captured := by
  unfold StaysSecret
  rcases htype with rfl | rfl
  · rw [encryptOrPassthrough_channel hmgr htext]
    simpa [AppState.keyringContext] using onlyCiphertext_encryptInContext_iff hmgr hen
  · cases hpeer : st.peerHandleOf bufferId captured with
    | some peerHandle =>
      rw [encryptOrPassthrough_query hmgr htext hpeer]
      simp only [AppState.keyringContext, hpeer] at hen ⊢
      simpa using onlyCiphertext_encryptInContext_iff hmgr hen
    | none =>
      simp only [AppState.keyringContext, hpeer] at hen ⊢
      simp only [e2eEncryptOrPassthrough, htext, hmgr, hpeer, e2eEnabled_of_hasE2e hen]
      by_cases hf : e.fault .getChannelConfig = none
      · simp [hf, OnlyCiphertext]
      · simp [hf, onlyCiphertext_unread_iff hmgr]

/-- What goes out for a conversation is ciphertext altogether, or no line is. -/
theorem onlyCiphertext_of_one {st : AppState} {mgr : E2eManager} {bufferId bufferName : Str}
    {bufferType : BufferType} {text wire : Str} {captured : Option Str}
    (hmgr : st.e2eManager = some mgr) (htype : bufferType.Sendable)
    (htext : bypassesE2e text = false)
    (hwire : IsCiphertext cr e mgr (st.keyringContext bufferId bufferName bufferType captured) text
      (e2eEncryptOrPassthrough cr e st bufferId bufferName bufferType text captured).2 wire) :
    OnlyCiphertext cr e mgr (st.keyringContext bufferId bufferName bufferType captured) text
      (e2eEncryptOrPassthrough cr e st bufferId bufferName bufferType text captured) := by
  rcases htype with rfl | rfl
  · rw [encryptOrPassthrough_channel hmgr htext] at hwire ⊢
    exact onlyCiphertext_encryptInContext_of_one hmgr hwire
  · cases hpeer : st.peerHandleOf bufferId captured with
    | some peerHandle =>
      simp only [AppState.keyringContext, hpeer] at hwire ⊢
      rw [encryptOrPassthrough_query hmgr htext hpeer] at hwire ⊢
      exact onlyCiphertext_encryptInContext_of_one hmgr hwire
    | none =>
      simp only [e2eEncryptOrPassthrough, htext, hmgr, hpeer] at hwire ⊢
      by_cases hen : e2eEnabled e mgr.keyring bufferName
      · simp [hen, OnlyCiphertext]
      · simp only [hen] at hwire
        exact absurd hwire (not_isCiphertext_of_unmoved hmgr wire)

/-- A text of more bytes than the chunks of one message hold is let out in the clear, whatever
the key and the cipher. -/
theorem long_text_leaks {st : AppState} {mgr : E2eManager} {bufferId context text : Str}
    (hmgr : st.e2eManager = some mgr) (hen : HasE2e mgr.keyring context)
    (hlong : maxChunks * maxPlaintextPerChunk < Utf8.byteLen text)
    (hvisible : ∃ c ∈ text, Text.isWhitespace c = false) :
    ¬ OnlyCiphertext cr e mgr context text
      (encryptInContext cr e st mgr bufferId context text) := by
  rw [onlyCiphertext_encryptInContext_iff hmgr hen]
  rintro (⟨-, hblank⟩ | ⟨-, hcan⟩)
  · obtain ⟨c, hc, hvis⟩ := hvisible
    simp [hblank c hc] at hvis
  · obtain ⟨chunks, hsplit, -⟩ := hcan.sealable
    exact absurd (byteLen_le_of_splitPlaintext hsplit) (Nat.not_le.mpr hlong)

/-! ### Sample conversations -/

namespace Sample

/-- Encryption is enabled for a channel or a pseudochannel. -/
def enabled (context : Str) (mode : ChannelMode) : Keyring :=
  { Keyring.empty with channels := Table.replace Table.empty ⟨context, true, mode⟩ }

/-- A conversation on the connection `libera`. -/
def buffer (bufferType : BufferType) (name : Str) (peerHandle : Option Str) : Buffer where
  id := str "libera/" ++ name
  connectionId := str "libera"
  bufferType := bufferType
  name := name
  messages := []
  users := Table.empty
  peerHandle := peerHandle

/-- A client with one conversation, which is active. -/
def appState (mgr : E2eManager) (buf : Buffer) : AppState where
  connections := Table.replace Table.empty ⟨str "libera", str "Libera", str "me", []⟩
  buffers := Table.replace Table.empty buf
  activeBufferId := some buf.id
  scrollbackLimit := 0
  shrinkMinUrlLength := 26
  pendingE2eSends := []
  e2eManager := some mgr

/-- The core of a client that has enabled encryption for one context. -/
def manager (context : Str) (mode : ChannelMode) : E2eManager :=
  E2eManager.init (Bytes.fill 32 1) (enabled context mode) defaultTsToleranceSecs

theorem hasE2e_enabled (context : Str) (mode : ChannelMode) :
    HasE2e (enabled context mode) context :=
  ⟨⟨context, true, mode⟩, by simp [enabled], rfl⟩

end Sample

open Sample in
theorem onlyCiphertext_hello :
    OnlyCiphertext sample (sampleEnv 0 0) (manager (str "#rust") .normal) (str "#rust") (str "hello")
      (e2eEncryptOrPassthrough sample (sampleEnv 0 0)
        (appState (manager (str "#rust") .normal) (buffer .channel (str "#rust") none))
        (str "libera/#rust") (str "#rust") .channel (str "hello") none) := by
  have hcan : CanEncrypt sample (sampleEnv 0 0) (manager (str "#rust") .normal) (str "#rust")
    (str "hello") :=
    canEncrypt_of_honest (sampleEnv_healthy 0 0) sample_honest
      (show splitPlaintext (str "hello") = .ok [Utf8.encode (str "hello")] from rfl)
  exact (onlyCiphertext_iff rfl (.inl rfl) (hasE2e_enabled _ _) rfl).mpr (.inr ⟨rfl, .inr hcan⟩)

/-- A text of 17 chunks. -/
def Sample.overlong : Str := List.replicate 2881 'a'

theorem Sample.byteLen_overlong : Utf8.byteLen Sample.overlong = 2881 := by
  have hlen : ∀ n, Utf8.byteLen (List.replicate n 'a') = n := by
    intro n
    induction n with
    | zero => rfl
    | succ n ih =>
      rw [List.replicate_succ, Utf8.byteLen, ih, Nat.add_comm]
      rfl
  exact hlen 2881

/-- Typed into `#rust`, it goes out in the clear. -/
theorem overlong_text_leaks :
    ¬ OnlyCiphertext sample (sampleEnv 0 0) (Sample.manager (str "#rust") .normal) (str "#rust")
      Sample.overlong
      (e2eEncryptOrPassthrough sample (sampleEnv 0 0)
        (Sample.appState (Sample.manager (str "#rust") .normal)
          (Sample.buffer .channel (str "#rust") none))
        (str "libera/#rust") (str "#rust") .channel Sample.overlong none) := by
  have hmem : 'a' ∈ Sample.overlong := List.mem_replicate.mpr ⟨by decide, rfl⟩
  rw [encryptOrPassthrough_channel rfl rfl]
  refine long_text_leaks rfl (Sample.hasE2e_enabled _ _) ?_ ⟨'a', hmem, rfl⟩
  rw [Sample.byteLen_overlong]
  decide

end Repartee
