import Repartee.E2e.Basic

/-!
# The plaintext chunker

`chunker.rs`: a message is cut at character boundaries into at most `MAX_CHUNKS` pieces of at
most `MAX_PLAINTEXT_PER_CHUNK` bytes. The cursor into the plaintext is represented by the text
behind it.

## Main results

- `splitPlaintext_flatten`: the chunks concatenate to the plaintext
- `splitPlaintext_texts`: every chunk is the encoding of a non-empty text within the budget
- `byteLen_le_of_splitPlaintext`: a longer message cannot be split
- `length_splitPlaintext`: there is at least one chunk and there are at most `MAX_CHUNKS`
- `splitPlaintext_eq_ok_iff`: a non-empty message with at most `MAX_CHUNKS` pieces is split
-/

set_option autoImplicit false

namespace Repartee

/-- Max chunks per logical message. -/
def maxChunks : Nat := 16

/-- Max plaintext bytes per chunk. -/
def maxPlaintextPerChunk : Nat := 180

namespace Chunker

/-- `while end > cursor && !plaintext.is_char_boundary(end) { end -= 1; }`, with `end` counted
from the cursor; the text is returned cut there. -/
def walkBack (rest : Str) : Nat → Str × Str
  | 0 => ([], rest)
  | e + 1 =>
    match Utf8.splitAt rest (e + 1) with
    | some cut => cut
    | none => walkBack rest e

/-- The next chunk and the text behind it. -/
def nextChunk (rest : Str) : Result (Str × Str) :=
  let cut := walkBack rest (min maxPlaintextPerChunk (Utf8.byteLen rest))
  if cut.1.isEmpty then
    .error (.wire (str "cannot split: single UTF-8 char exceeds chunk budget"))
  else .ok cut

/-- The loop of `split_plaintext`; `left` more chunks fit before the limit is exceeded. -/
def splitLoop : (left : Nat) → (rest : Str) → Result (List (List UInt8))
  | 0, rest =>
    if rest.isEmpty then .ok []
    else (nextChunk rest).bind (fun _ => .error (.chunkLimit (UInt8.ofNat (maxChunks + 1))))
  | left + 1, rest =>
    if rest.isEmpty then .ok []
    else (nextChunk rest).bind (fun cut =>
      (splitLoop left cut.2).map (fun chunks => Utf8.encode cut.1 :: chunks))

end Chunker

/-- Split a plaintext message into chunks; empty input is refused. -/
def splitPlaintext (plaintext : Str) : Result (List (List UInt8)) :=
  if plaintext.isEmpty then .error (.wire (str "empty plaintext"))
  else Chunker.splitLoop maxChunks plaintext

namespace Chunker

theorem walkBack_append (rest : Str) (e : Nat) :
    rest = (walkBack rest e).1 ++ (walkBack rest e).2 ∧ Utf8.byteLen (walkBack rest e).1 ≤ e := by
  induction e with
  | zero => exact ⟨rfl, Nat.le_refl 0⟩
  | succ e ih =>
    rw [walkBack]
    split
    · rename_i cut hcut
      obtain ⟨h, hlen⟩ := Utf8.splitAt_eq_some_iff.mp hcut
      exact ⟨h, Nat.le_of_eq hlen⟩
    · exact ⟨ih.1, Nat.le_succ_of_le ih.2⟩

/-- Walking back does not pass a character boundary. -/
theorem le_byteLen_walkBack {rest : Str} {b e : Nat} (hb : Utf8.isCharBoundary rest b = true)
    (hle : b ≤ e) : b ≤ Utf8.byteLen (walkBack rest e).1 := by
  induction e with
  | zero => exact Nat.le_trans hle (Nat.zero_le _)
  | succ e ih =>
    rw [walkBack]
    split
    · rename_i cut hcut
      rw [(Utf8.splitAt_eq_some_iff.mp hcut).2]
      exact hle
    · rename_i hnone
      refine ih (Nat.le_of_lt_succ (Nat.lt_of_le_of_ne hle ?_))
      rintro rfl
      rw [Utf8.isCharBoundary, hnone] at hb
      simp at hb

/-- The budget admits the first character, so the cut makes progress. -/
theorem walkBack_ne_nil {rest : Str} (h : rest ≠ []) :
    (walkBack rest (min maxPlaintextPerChunk (Utf8.byteLen rest))).1 ≠ [] := by
  cases rest with
  | nil => exact absurd rfl h
  | cons c s =>
    have hpos := Char.utf8Size_pos c
    have hle : c.utf8Size ≤ min maxPlaintextPerChunk (Utf8.byteLen (c :: s)) := by
      have h4 := Char.utf8Size_le_four c
      simp only [maxPlaintextPerChunk, Utf8.byteLen]
      omega
    have hb : Utf8.isCharBoundary (c :: s) c.utf8Size = true :=
      Utf8.isCharBoundary_iff.mpr ⟨[c], s, rfl, by simp [Utf8.byteLen]⟩
    have hw := le_byteLen_walkBack hb hle
    rw [← Utf8.byteLen_pos_iff]
    omega

theorem nextChunk_eq_ok {rest : Str} {cut : Str × Str} (h : nextChunk rest = .ok cut) :
    rest = cut.1 ++ cut.2 ∧ cut.1 ≠ [] ∧ Utf8.byteLen cut.1 ≤ maxPlaintextPerChunk := by
  obtain ⟨happ, hlen⟩ := walkBack_append rest (min maxPlaintextPerChunk (Utf8.byteLen rest))
  unfold nextChunk at h
  dsimp only at h
  split at h
  · simp at h
  · rename_i hne
    cases h
    exact ⟨happ, by simpa using hne, Nat.le_trans hlen (Nat.min_le_left _ _)⟩

theorem nextChunk_ok {rest : Str} (h : rest ≠ []) : ∃ cut, nextChunk rest = .ok cut := by
  have hne := walkBack_ne_nil h
  unfold nextChunk
  rw [if_neg (by simpa using hne)]
  exact ⟨_, rfl⟩

@[simp] theorem splitLoop_nil (left : Nat) : splitLoop left [] = .ok [] := by
  cases left <;> rfl

/-- The texts of the chunks: the loop's result without the encoding. -/
theorem splitLoop_texts {left : Nat} {rest : Str} {chunks : List (List UInt8)}
    (h : splitLoop left rest = .ok chunks) :
    ∃ texts : List Str, chunks = texts.map Utf8.encode ∧ texts.flatten = rest ∧
      texts.length ≤ left ∧
      ∀ t ∈ texts, t ≠ [] ∧ Utf8.byteLen t ≤ maxPlaintextPerChunk := by
  induction left generalizing rest chunks with
  | zero =>
    by_cases hnil : rest = []
    · subst hnil
      have hc : [] = chunks := by simpa using h
      exact ⟨[], hc.symm, rfl, Nat.zero_le _, by simp⟩
    · rw [splitLoop, if_neg (by simpa using hnil)] at h
      cases hcut : nextChunk rest <;> simp [hcut, Except.bind] at h
  | succ left ih =>
    by_cases hnil : rest = []
    · subst hnil
      have hc : [] = chunks := by simpa using h
      exact ⟨[], hc.symm, rfl, Nat.zero_le _, by simp⟩
    · rw [splitLoop, if_neg (by simpa using hnil)] at h
      cases hcut : nextChunk rest with
      | error e => simp [hcut, Except.bind] at h
      | ok cut =>
        obtain ⟨happ, hne, hlen⟩ := nextChunk_eq_ok hcut
        cases hrec : splitLoop left cut.2 with
        | error e => simp [hcut, hrec, Except.bind, Except.map] at h
        | ok tail =>
          have hchunks : Utf8.encode cut.1 :: tail = chunks := by
            simpa [hcut, hrec, Except.bind, Except.map] using h
          obtain ⟨texts, rfl, hflat, hcount, htexts⟩ := ih hrec
          refine ⟨cut.1 :: texts, hchunks.symm, ?_, Nat.succ_le_succ hcount, ?_⟩
          · rw [List.flatten_cons, hflat, ← happ]
          · intro t ht
            rcases List.mem_cons.mp ht with rfl | ht
            · exact ⟨hne, hlen⟩
            · exact htexts t ht

/-- The pieces that a text is cut into, however many there are. -/
def pieces (rest : Str) : List Str :=
  if _ : rest = [] then []
  else
    let cut := walkBack rest (min maxPlaintextPerChunk (Utf8.byteLen rest))
    cut.1 :: pieces cut.2
  termination_by rest.length
  decreasing_by
    rename_i hne
    have happ := (walkBack_append rest (min maxPlaintextPerChunk (Utf8.byteLen rest))).1
    have hpos := List.length_pos_iff.mpr (walkBack_ne_nil hne)
    have hlen := congrArg List.length happ
    rw [List.length_append] at hlen
    omega

@[simp] theorem pieces_nil : pieces [] = [] := by
  rw [pieces, dif_pos rfl]

theorem pieces_of_nextChunk {rest : Str} {cut : Str × Str} (hne : rest ≠ [])
    (h : nextChunk rest = .ok cut) : pieces rest = cut.1 :: pieces cut.2 := by
  unfold nextChunk at h
  dsimp only at h
  split at h
  · simp at h
  · cases h
    rw [pieces, dif_neg hne]

/-- The loop returns the encoded pieces, if there are few enough of them. -/
theorem splitLoop_eq_ok_iff {left : Nat} {rest : Str} {chunks : List (List UInt8)} :
    splitLoop left rest = .ok chunks ↔
      (pieces rest).length ≤ left ∧ chunks = (pieces rest).map Utf8.encode := by
  induction left generalizing rest chunks with
  | zero =>
    by_cases hnil : rest = []
    · subst hnil
      simp [eq_comm]
    · obtain ⟨cut, hcut⟩ := nextChunk_ok hnil
      rw [splitLoop, if_neg (by simpa using hnil), hcut, pieces_of_nextChunk hnil hcut]
      simp [Except.bind]
  | succ left ih =>
    by_cases hnil : rest = []
    · subst hnil
      simp [eq_comm]
    · obtain ⟨cut, hcut⟩ := nextChunk_ok hnil
      rw [splitLoop, if_neg (by simpa using hnil), hcut, pieces_of_nextChunk hnil hcut]
      show (splitLoop left cut.2).map (fun chunks => Utf8.encode cut.1 :: chunks) = _ ↔ _
      rw [List.length_cons, Nat.succ_le_succ_iff, List.map_cons]
      constructor
      · intro h
        cases hrec : splitLoop left cut.2 with
        | error err => simp [hrec, Except.map] at h
        | ok tail =>
          obtain ⟨hlen, rfl⟩ := ih.mp hrec
          rw [hrec] at h
          cases h
          exact ⟨hlen, rfl⟩
      · rintro ⟨hlen, rfl⟩
        rw [ih.mpr ⟨hlen, rfl⟩]
        rfl

end Chunker

/-- A message is split if and only if it is not empty and has few enough pieces. -/
theorem splitPlaintext_eq_ok_iff {plaintext : Str} {chunks : List (List UInt8)} :
    splitPlaintext plaintext = .ok chunks ↔
      plaintext ≠ [] ∧ (Chunker.pieces plaintext).length ≤ maxChunks ∧
        chunks = (Chunker.pieces plaintext).map Utf8.encode := by
  unfold splitPlaintext
  by_cases hnil : plaintext = []
  · simp [hnil]
  · rw [if_neg (by simpa using hnil), Chunker.splitLoop_eq_ok_iff]
    simp [hnil]

theorem splitPlaintext_ne_nil {plaintext : Str} {chunks : List (List UInt8)}
    (h : splitPlaintext plaintext = .ok chunks) : plaintext ≠ [] := by
  rintro rfl
  simp [splitPlaintext] at h

/-- A message that can be split is the concatenation of at most `MAX_CHUNKS` non-empty texts
within the budget, and the chunks are their encodings. -/
theorem splitPlaintext_texts {plaintext : Str} {chunks : List (List UInt8)}
    (h : splitPlaintext plaintext = .ok chunks) :
    ∃ texts : List Str, chunks = texts.map Utf8.encode ∧ texts.flatten = plaintext ∧
      0 < texts.length ∧ texts.length ≤ maxChunks ∧
      ∀ t ∈ texts, t ≠ [] ∧ Utf8.byteLen t ≤ maxPlaintextPerChunk := by
  have hne := splitPlaintext_ne_nil h
  rw [splitPlaintext, if_neg (by simpa using hne)] at h
  obtain ⟨texts, hc, hflat, hlen, ht⟩ := Chunker.splitLoop_texts h
  refine ⟨texts, hc, hflat, ?_, hlen, ht⟩
  refine List.length_pos_iff.mpr ?_
  rintro rfl
  exact hne hflat.symm

/-- The chunks concatenate to the plaintext. -/
theorem splitPlaintext_flatten {plaintext : Str} {chunks : List (List UInt8)}
    (h : splitPlaintext plaintext = .ok chunks) : chunks.flatten = Utf8.encode plaintext := by
  obtain ⟨texts, rfl, rfl, -⟩ := splitPlaintext_texts h
  clear h
  induction texts with
  | nil => rfl
  | cons t texts ih =>
    simp only [List.map_cons, List.flatten_cons, Utf8.encode_append, ih]

/-- The chunks of a message hold a bounded number of bytes. -/
theorem byteLen_le_of_splitPlaintext {plaintext : Str} {chunks : List (List UInt8)}
    (h : splitPlaintext plaintext = .ok chunks) :
    Utf8.byteLen plaintext ≤ maxChunks * maxPlaintextPerChunk := by
  obtain ⟨texts, -, rfl, -, hcount, htexts⟩ := splitPlaintext_texts h
  clear h
  have hsum : Utf8.byteLen texts.flatten ≤ texts.length * maxPlaintextPerChunk := by
    clear hcount
    induction texts with
    | nil => simp [Utf8.byteLen]
    | cons t texts ih =>
      have ht := (htexts t List.mem_cons_self).2
      have hrest := ih (fun u hu => htexts u (List.mem_cons_of_mem t hu))
      rw [List.flatten_cons, Utf8.byteLen_append, List.length_cons, Nat.succ_mul]
      omega
  exact Nat.le_trans hsum (Nat.mul_le_mul_right _ hcount)

theorem length_splitPlaintext {plaintext : Str} {chunks : List (List UInt8)}
    (h : splitPlaintext plaintext = .ok chunks) :
    0 < chunks.length ∧ chunks.length ≤ maxChunks := by
  obtain ⟨texts, rfl, -, hpos, hle, -⟩ := splitPlaintext_texts h
  simpa using ⟨hpos, hle⟩

end Repartee
