import Repartee.Irc.Netsplit
import Mathlib.Data.List.Dedup
import Mathlib.Data.List.Perm.Basic

/-!
# Netsplit summaries

What a split takes out of the display comes back in the summaries of the groups that have gathered
it. A group is printed before it expires.

## Main definitions

- `Netsplit.collect`: what the calls of a run yield
- `Netsplit.Account`: the groups that have been printed, and the JOINs that each has gathered
- `Netsplit.Account.Balanced`: the account of a run

## Main results

- `Netsplit.netsplit_accounting`: every run has a balanced account
-/

set_option autoImplicit false

namespace Repartee

/-! ### Modified lists -/

section ModifyFirst

variable {α β : Type} {p q : α → Bool} {new : α} {f : α → α}

theorem filter_modifyFirst (hp : ∀ a, p a = true → q a = true)
    (hf : ∀ a, q a = true → q (f a) = true) (hnew : q new = true) (l : List α) :
    (modifyFirst p new f l).filter q = modifyFirst p new f (l.filter q) := by
  induction l with
  | nil => simp [modifyFirst, hf new hnew]
  | cons a l ih =>
    rw [modifyFirst]
    by_cases hpa : p a = true
    · have hqa := hp a hpa
      rw [if_pos hpa, List.filter_cons_of_pos (hf a hqa), List.filter_cons_of_pos hqa, modifyFirst,
        if_pos hpa]
    · rw [if_neg hpa]
      by_cases hqa : q a = true
      · rw [List.filter_cons_of_pos hqa, List.filter_cons_of_pos hqa, modifyFirst, if_neg hpa, ih]
      · rw [List.filter_cons_of_neg hqa, List.filter_cons_of_neg hqa, ih]

theorem map_modifyFirst (g : α → β) {p' : β → Bool} {f' : β → β} (hp : ∀ a, p' (g a) = p a)
    (hf : ∀ a, g (f a) = f' (g a)) (l : List α) :
    (modifyFirst p new f l).map g = modifyFirst p' (g new) f' (l.map g) := by
  induction l with
  | nil => simp [modifyFirst, hf]
  | cons a l ih =>
    rw [List.map_cons, modifyFirst, modifyFirst, hp]
    by_cases hpa : p a = true
    · rw [if_pos hpa, if_pos hpa, List.map_cons, hf]
    · rw [if_neg hpa, if_neg hpa, List.map_cons, ih]

/-- One element of the list gathers `e`. -/
theorem flatMap_modifyFirst_perm {h : α → List β} {e : β} (hf : ∀ a, h (f a) = h a ++ [e])
    (hnew : h new = []) (l : List α) :
    ((modifyFirst p new f l).flatMap h).Perm (l.flatMap h ++ [e]) := by
  induction l with
  | nil => simp [modifyFirst, hf, hnew]
  | cons a l ih =>
    rw [modifyFirst]
    by_cases hpa : p a = true
    · rw [if_pos hpa, List.flatMap_cons, List.flatMap_cons, hf, List.append_assoc,
        List.append_assoc]
      exact List.perm_append_comm.append_left (h a)
    · rw [if_neg hpa, List.flatMap_cons, List.flatMap_cons, List.append_assoc]
      exact ih.append_left (h a)

theorem forall_mem_modifyFirst {P : α → Prop} (hf : ∀ a, P a → P (f a)) (hnew : P new)
    {l : List α} (hl : ∀ a ∈ l, P a) : ∀ a ∈ modifyFirst p new f l, P a := by
  induction l with
  | nil => exact fun a ha => by rw [List.mem_singleton.mp ha]; exact hf new hnew
  | cons b l ih =>
    obtain ⟨hb, hl⟩ := List.forall_mem_cons.mp hl
    rw [modifyFirst]
    by_cases hpb : p b = true
    · rw [if_pos hpb]
      exact List.forall_mem_cons.mpr ⟨hf b hb, hl⟩
    · rw [if_neg hpb]
      exact List.forall_mem_cons.mpr ⟨hb, ih hl⟩

/-- What a tick leaves unprinted, if it prints an element before it drops it. -/
theorem filter_kept {print : α → α} {due fresh waiting : α → Bool}
    (hprint : ∀ a, due a = true → waiting (print a) = false)
    (hsame : ∀ a, due a = false → print a = a)
    (hfresh : ∀ a, waiting a = true → due a = false → fresh a = true) (l : List α) :
    ((l.map print).filter fresh).filter waiting = (l.filter waiting).filter (fun a => !due a) := by
  induction l with
  | nil => rfl
  | cons a l ih =>
    rw [List.filter_filter] at ih ⊢
    by_cases hdue : due a = true
    · have hleft : (waiting (print a) && fresh (print a)) = false := by rw [hprint a hdue]; rfl
      rw [List.map_cons, List.filter_cons_of_neg (by rw [hleft]; simp), ih]
      by_cases hw : waiting a = true
      · rw [List.filter_cons_of_pos hw, List.filter_cons_of_neg (by simp [hdue])]
      · rw [List.filter_cons_of_neg hw]
    · have hdue' : due a = false := Bool.of_not_eq_true hdue
      rw [List.map_cons, hsame a hdue']
      by_cases hw : waiting a = true
      · rw [List.filter_cons_of_pos (by rw [hw, hfresh a hw hdue']; rfl), ih,
          List.filter_cons_of_pos hw, List.filter_cons_of_pos (by simp [hdue'])]
      · rw [List.filter_cons_of_neg (by simp [hw]), ih, List.filter_cons_of_neg hw]

end ModifyFirst

/-! ### Messages -/

/-- The messages for a buffer. -/
def messagesFor (buffer : Str) (messages : List NetsplitMessage) : List NetsplitMessage :=
  messages.filter (fun m => m.bufferIds.contains buffer)

theorem nicksIn_eq_nil_iff (buffer : Str) (entries : List (Str × List Str)) :
    nicksIn buffer entries = [] ↔ buffer ∉ entries.flatMap Prod.snd := by
  simp only [nicksIn, List.flatMap_eq_nil_iff, List.map_eq_nil_iff, List.filter_eq_nil_iff,
    List.mem_flatMap, not_exists, not_and, decide_eq_true_eq]
  exact ⟨fun h e he hb => h e he buffer hb rfl, fun h e he b hb hbuffer => h e he (hbuffer ▸ hb)⟩

/-- **A summary for each buffer**: a buffer with nicks gets one message, which tells them. -/
theorem messagesFor_channelNicks (summary : List Str → Str) (entries : List (Str × List Str))
    (buffer : Str) :
    messagesFor buffer ((channelNicks entries).map (fun cn => ⟨[cn.1], summary cn.2⟩)) =
      if nicksIn buffer entries = [] then []
      else [⟨[buffer], summary (nicksIn buffer entries)⟩] := by
  have hmap : (channelNicks entries).map (fun cn => (⟨[cn.1], summary cn.2⟩ : NetsplitMessage)) =
      (entries.flatMap Prod.snd).dedup.map (fun b => ⟨[b], summary (nicksIn b entries)⟩) := by
    rw [channelNicks, List.map_map]
    rfl
  have hcontains : ((fun m : NetsplitMessage => m.bufferIds.contains buffer) ∘
      fun b => ⟨[b], summary (nicksIn b entries)⟩) = fun b => decide (b = buffer) := by
    funext b
    simp [eq_comm]
  rw [hmap, messagesFor, List.filter_map, hcontains]
  by_cases hb : buffer ∈ entries.flatMap Prod.snd
  · have hone : (entries.flatMap Prod.snd).dedup.filter (fun b => decide (b = buffer)) =
        [buffer] := by
      have hcount : (entries.flatMap Prod.snd).dedup.count buffer = 1 :=
        List.count_eq_one_of_mem (List.nodup_dedup _) (List.mem_dedup.mpr hb)
      rw [List.filter_eq, hcount]
      rfl
    rw [hone, if_neg (mt (nicksIn_eq_nil_iff buffer entries).mp (not_not.mpr hb))]
    rfl
  · rw [if_pos ((nicksIn_eq_nil_iff buffer entries).mpr hb), List.map_eq_nil_iff,
      List.filter_eq_nil_iff]
    rintro b hmem hb'
    exact hb (of_decide_eq_true hb' ▸ List.mem_dedup.mp hmem)

namespace Netsplit

open NetsplitState

/-! ### The account of a run -/

variable (lower : Str → Str)

/-- What the calls of a run yield. -/
def collect {β : Type} (f : NetsplitState → Op → List β) : NetsplitState → List Op → List β
  | _, [] => []
  | s, op :: ops => f s op ++ collect f (step lower s op) ops

/-- A suppressed QUIT, with its buffers. -/
def quitOf (s : NetsplitState) : Op → List SplitRecord
  | .quit now nick message affected =>
    if suppresses lower s (.quit now nick message affected) then [⟨nick, affected⟩] else []
  | .join _ _ _ => []
  | .tick _ => []

/-- A suppressed JOIN: the nick and the buffer. -/
def joinOf (s : NetsplitState) : Op → List (Str × Str)
  | .join now nick bufferId =>
    if suppresses lower s (.join now nick bufferId) then [(nick, bufferId)] else []
  | .quit _ _ _ _ => []
  | .tick _ => []

def summariesOf (s : NetsplitState) : Op → List NetsplitMessage
  | .tick now => (s.tick lower now).1
  | .quit _ _ _ _ => []
  | .join _ _ _ => []

/-- The records gather the JOINs: each JOIN is noted under its nick, which has one record, and
nothing else is. -/
structure Gathers (records : List NetjoinRecord) (joins : List (Str × Str)) : Prop where
  distinct : records.Pairwise (fun r r' => eqIgnoreAsciiCase r.nick r'.nick = false)
  channels : ∀ r ∈ records, r.channels.Nodup
  covered : ∀ join ∈ joins, ∃ r ∈ records,
    eqIgnoreAsciiCase r.nick join.1 = true ∧ join.2 ∈ r.channels
  suppressed : ∀ r ∈ records, ∀ b ∈ r.channels, ∃ nick, (nick, b) ∈ joins ∧
    eqIgnoreAsciiCase r.nick nick = true

/-- The groups that have been printed, and the JOINs that each group has gathered. -/
structure Account where
  splits : List SplitGroup
  netjoins : List (NetjoinGroup × List (Str × Str))
  /-- The groups that have not been printed. -/
  waiting : List (NetjoinGroup × List (Str × Str))

/-- Every suppressed QUIT and JOIN is in exactly one group. The groups that have been printed make
up the summaries; the others are in the state. -/
structure Account.Balanced (a : Account) (s : NetsplitState) (quits : List SplitRecord)
    (joins : List (Str × Str)) (messages : List NetsplitMessage) : Prop where
  messages : messages.Perm (a.splits.flatMap formatSplitMessages ++
    a.netjoins.flatMap (fun e => formatNetjoinMessages e.1))
  quits : quits.Perm (a.splits.flatMap SplitGroup.nicks ++
    (s.groups.filter (fun g => !g.printed)).flatMap SplitGroup.nicks)
  joins : joins.Perm (a.netjoins.flatMap Prod.snd ++ a.waiting.flatMap Prod.snd)
  waiting : a.waiting.map Prod.fst = s.netjoins.filter (fun g => !g.printed)
  gathers : ∀ e ∈ a.netjoins ++ a.waiting, Gathers e.1.records e.2

/-- A JOIN makes a new record, or is noted in the record of its nick. -/
theorem noteJoin_cases (nick buffer : Str) (records : List NetjoinRecord) :
    (NetjoinGroup.noteJoin nick buffer records = records ++ [⟨nick, [buffer]⟩] ∧
        ∀ r ∈ records, eqIgnoreAsciiCase r.nick nick = false) ∨
      ∃ before r after channels, records = before ++ r :: after ∧
        eqIgnoreAsciiCase r.nick nick = true ∧
        (∀ b, b ∈ channels ↔ b ∈ r.channels ∨ b = buffer) ∧ (r.channels.Nodup → channels.Nodup) ∧
        NetjoinGroup.noteJoin nick buffer records =
          before ++ { r with channels := channels } :: after := by
  induction records with
  | nil => exact .inl ⟨rfl, fun r hr => absurd hr List.not_mem_nil⟩
  | cons r records ih =>
    rw [NetjoinGroup.noteJoin]
    by_cases hr : eqIgnoreAsciiCase r.nick nick = true
    · right
      refine ⟨[], r, records, _, rfl, hr, ?_, ?_, by rw [if_pos hr]; rfl⟩
      · intro b
        by_cases hmem : r.channels.contains buffer = true
        · rw [if_pos hmem]
          refine (or_iff_left_of_imp ?_).symm
          rintro rfl
          exact List.contains_iff_mem.mp hmem
        · rw [if_neg hmem, List.mem_append, List.mem_singleton]
      · intro hnodup
        by_cases hmem : r.channels.contains buffer = true
        · rw [if_pos hmem]
          exact hnodup
        · rw [if_neg hmem]
          refine List.nodup_append.mpr ⟨hnodup, List.nodup_singleton buffer, ?_⟩
          rintro b hb b' hb' rfl
          rw [List.mem_singleton.mp hb'] at hb
          exact hmem (List.contains_iff_mem.mpr hb)
    · rw [if_neg hr]
      rcases ih with ⟨heq, hno⟩ | ⟨before, r', after, channels, heq, hr', hmem, hnodup, hnote⟩
      · left
        rw [heq]
        exact ⟨rfl, List.forall_mem_cons.mpr ⟨Bool.of_not_eq_true hr, hno⟩⟩
      · right
        refine ⟨r :: before, r', after, channels, by rw [heq]; rfl, hr', hmem, hnodup, ?_⟩
        rw [hnote]
        rfl

/-- The records gather one more JOIN. -/
theorem Gathers.noteJoin {records : List NetjoinRecord} {joins : List (Str × Str)}
    (h : Gathers records joins) (nick buffer : Str) :
    Gathers (NetjoinGroup.noteJoin nick buffer records) (joins ++ [(nick, buffer)]) := by
  have hself : eqIgnoreAsciiCase nick nick = true := by rw [eqIgnoreAsciiCase]; simp
  have hcovered : ∀ {join}, join ∈ joins ++ [(nick, buffer)] →
      join ∈ joins ∨ join = (nick, buffer) := by
    intro join hjoin
    simpa using hjoin
  rcases noteJoin_cases nick buffer records with
    ⟨heq, hno⟩ | ⟨before, r, after, channels, rfl, hr, hmem, hnodup, heq⟩
  · rw [heq]
    refine ⟨?_, ?_, fun join hjoin => ?_, fun r hr b hb => ?_⟩
    · refine List.pairwise_append.mpr ⟨h.distinct, List.pairwise_singleton _ _, ?_⟩
      rintro r hr r' hr'
      rw [List.mem_singleton.mp hr']
      exact hno r hr
    · refine List.forall_mem_append.mpr ⟨h.channels, ?_⟩
      rintro r hr
      rw [List.mem_singleton.mp hr]
      exact List.nodup_singleton buffer
    · rcases hcovered hjoin with hjoin | rfl
      · obtain ⟨r, hr, hnick⟩ := h.covered join hjoin
        exact ⟨r, List.mem_append_left _ hr, hnick⟩
      · exact ⟨_, List.mem_append_right _ List.mem_cons_self, hself, List.mem_cons_self⟩
    · rcases List.mem_append.mp hr with hr | hr
      · obtain ⟨nick', hjoin, hnick⟩ := h.suppressed r hr b hb
        exact ⟨nick', List.mem_append_left _ hjoin, hnick⟩
      · cases List.mem_singleton.mp hr
        cases List.mem_singleton.mp hb
        exact ⟨nick, List.mem_append_right _ List.mem_cons_self, hself⟩
  · rw [heq]
    -- the record of the nick keeps its place, and gains at most the buffer
    have hold : r ∈ before ++ r :: after := List.mem_append_right _ List.mem_cons_self
    have hnew : ∀ {r'}, r' ∈ before ++ { r with channels := channels } :: after →
        r' = { r with channels := channels } ∨ r' ∈ before ++ r :: after := by
      intro r' hr'
      simp only [List.mem_append, List.mem_cons] at hr' ⊢
      tauto
    refine ⟨?_, fun r' hr' => ?_, fun join hjoin => ?_, fun r' hr' b hb => ?_⟩
    · have hnicks : ((before ++ r :: after).map NetjoinRecord.nick).Pairwise
          (fun a b => eqIgnoreAsciiCase a b = false) := List.pairwise_map.mpr h.distinct
      have hsame : (before ++ { r with channels := channels } :: after).map NetjoinRecord.nick =
          (before ++ r :: after).map NetjoinRecord.nick := by simp
      rw [← hsame] at hnicks
      exact List.pairwise_map.mp hnicks
    · rcases hnew hr' with rfl | hr'
      · exact hnodup (h.channels r hold)
      · exact h.channels r' hr'
    · have hat : { r with channels := channels } ∈
          before ++ { r with channels := channels } :: after :=
        List.mem_append_right _ List.mem_cons_self
      rcases hcovered hjoin with hjoin | rfl
      · obtain ⟨r', hr', hnick, hb⟩ := h.covered join hjoin
        by_cases hsame : r' = r
        · exact ⟨_, hat, hsame ▸ hnick, (hmem _).mpr (.inl (hsame ▸ hb))⟩
        · refine ⟨r', ?_, hnick, hb⟩
          simp only [List.mem_append, List.mem_cons, hsame, false_or] at hr' ⊢
          tauto
      · exact ⟨_, hat, hr, (hmem _).mpr (.inr rfl)⟩
    · rcases hnew hr' with rfl | hr'
      · rcases (hmem b).mp hb with hb | rfl
        · obtain ⟨nick', hjoin, hnick⟩ := h.suppressed r hold b hb
          exact ⟨nick', List.mem_append_left _ hjoin, hnick⟩
        · exact ⟨nick, List.mem_append_right _ List.mem_cons_self, hr⟩
      · obtain ⟨nick', hjoin, hnick⟩ := h.suppressed r' hr' b hb
        exact ⟨nick', List.mem_append_left _ hjoin, hnick⟩

/-! ### Every run has a balanced account -/

theorem unprinted_of_isOpen {server₁ server₂ : Str} {g : SplitGroup}
    (h : g.isOpen server₁ server₂ = true) : (!g.printed) = true :=
  (Bool.and_eq_true_iff.mp h).2

theorem NetjoinGroup.unprinted_of_isOpen {server₁ server₂ : Str} {g : NetjoinGroup}
    (h : g.isOpen server₁ server₂ = true) : (!g.printed) = true :=
  (Bool.and_eq_true_iff.mp h).2

/-- The time to print a group comes before the time to drop it. -/
theorem not_due_fresh {now last : Nat} {printed : Bool} (hw : (!printed) = true)
    (hdue : (!printed && decide (splitBatchWait ≤ now - last)) = false) :
    decide (now - last < splitExpire) = true := by
  rw [hw, Bool.true_and, decide_eq_false_iff_not, splitBatchWait] at hdue
  rw [decide_eq_true_iff, splitExpire]
  omega

/-- The groups that a tick leaves unprinted. -/
theorem unprinted_tick (s : NetsplitState) (now : Nat) :
    (s.tick lower now).2.groups.filter (fun g => !g.printed) =
      (s.groups.filter (fun g => !g.printed)).filter (fun g => !g.due now) := by
  refine @filter_kept _ (SplitGroup.print now) (SplitGroup.due now) (SplitGroup.fresh now) _
    (fun g hg => ?_) (fun g hg => ?_) (fun g hw hg => not_due_fresh hw hg) s.groups
  · rw [SplitGroup.print, if_pos hg]
    rfl
  · rw [SplitGroup.print, if_neg (Bool.eq_false_iff.mp hg)]

theorem unprinted_netjoins_tick (s : NetsplitState) (now : Nat) :
    (s.tick lower now).2.netjoins.filter (fun g => !g.printed) =
      (s.netjoins.filter (fun g => !g.printed)).filter (fun g => !g.due now) := by
  refine @filter_kept _ (NetjoinGroup.print now) (NetjoinGroup.due now) (NetjoinGroup.fresh now) _
    (fun g hg => ?_) (fun g hg => ?_) (fun g hw hg => not_due_fresh hw hg) s.netjoins
  · rw [NetjoinGroup.print, if_pos hg]
    rfl
  · rw [NetjoinGroup.print, if_neg (Bool.eq_false_iff.mp hg)]

variable {a : Account} {s : NetsplitState} {quits : List SplitRecord} {joins : List (Str × Str)}
  {messages : List NetsplitMessage}

/-- A QUIT goes to an unprinted group. -/
theorem Account.Balanced.quit (h : a.Balanced s quits joins messages) (now : Nat) (nick : Str)
    (affected : List Str) (pair : Str × Str) :
    a.Balanced (afterQuit lower s now nick affected pair) (quits ++ [⟨nick, affected⟩]) joins
      messages := by
  refine ⟨h.messages, ?_, h.joins, h.waiting, h.gathers⟩
  have hfilter : ((afterQuit lower s now nick affected pair).groups.filter (fun g => !g.printed)) =
      modifyFirst (SplitGroup.isOpen pair.1 pair.2) ⟨pair.1, pair.2, [], now, false⟩
        (SplitGroup.addQuit now ⟨nick, affected⟩) (s.groups.filter (fun g => !g.printed)) :=
    filter_modifyFirst (p := SplitGroup.isOpen pair.1 pair.2) (q := fun g => !g.printed)
      (f := SplitGroup.addQuit now ⟨nick, affected⟩) (fun g hg => unprinted_of_isOpen hg)
      (fun g hg => hg) rfl s.groups
  rw [hfilter]
  refine (h.quits.append_right _).trans ?_
  rw [List.append_assoc]
  exact (flatMap_modifyFirst_perm (fun g => rfl) rfl _).symm.append_left _

/-- A JOIN goes to an unprinted group. -/
theorem Account.Balanced.join (h : a.Balanced s quits joins messages) (now : Nat)
    (nick buffer : Str) (g : SplitGroup) :
    ∃ a' : Account, a'.Balanced (afterJoin lower s now nick buffer g) quits
      (joins ++ [(nick, buffer)]) messages := by
  let isOpen := NetjoinGroup.isOpen g.server₁ g.server₂
  let new : NetjoinGroup := ⟨g.server₁, g.server₂, [], now, false⟩
  let note : NetjoinGroup × List (Str × Str) → NetjoinGroup × List (Str × Str) :=
    fun e => (e.1.addJoin now nick buffer, e.2 ++ [(nick, buffer)])
  have hfilter : (afterJoin lower s now nick buffer g).netjoins.filter (fun g => !g.printed) =
      modifyFirst isOpen new (NetjoinGroup.addJoin now nick buffer)
        (s.netjoins.filter (fun g => !g.printed)) :=
    filter_modifyFirst (p := isOpen) (q := fun g => !g.printed)
      (f := NetjoinGroup.addJoin now nick buffer)
      (fun g hg => NetjoinGroup.unprinted_of_isOpen hg) (fun g hg => hg) rfl s.netjoins
  have hwaiting : (modifyFirst (fun e => isOpen e.1) (new, []) note a.waiting).map Prod.fst =
      modifyFirst isOpen new (NetjoinGroup.addJoin now nick buffer) (a.waiting.map Prod.fst) :=
    map_modifyFirst Prod.fst (fun e => rfl) (fun e => rfl) a.waiting
  have hgathers := List.forall_mem_append.mp h.gathers
  refine ⟨{ a with waiting := modifyFirst (fun e => isOpen e.1) (new, []) note a.waiting },
    h.messages, h.quits, ?_, by rw [hfilter, hwaiting, h.waiting],
    List.forall_mem_append.mpr ⟨hgathers.1, forall_mem_modifyFirst ?_ ?_ hgathers.2⟩⟩
  · refine (h.joins.append_right _).trans ?_
    rw [List.append_assoc]
    exact (flatMap_modifyFirst_perm (fun e => rfl) rfl _).symm.append_left _
  · exact fun e he => he.noteJoin nick buffer
  · exact ⟨List.Pairwise.nil, fun r hr => absurd hr List.not_mem_nil,
      fun r hr => absurd hr List.not_mem_nil, fun r hr => absurd hr List.not_mem_nil⟩

/-- The groups that a tick prints are no longer in the state. -/
theorem Account.Balanced.tick (h : a.Balanced s quits joins messages) (now : Nat) :
    ∃ a' : Account, a'.Balanced (s.tick lower now).2 quits joins
      (messages ++ (s.tick lower now).1) := by
  let dueNow : NetjoinGroup × List (Str × Str) → Bool := fun e => e.1.due now
  have hsplits : s.groups.filter (SplitGroup.due now) =
      (s.groups.filter (fun g => !g.printed)).filter (SplitGroup.due now) := by
    rw [List.filter_filter]
    refine List.filter_congr (fun g _ => ?_)
    rw [SplitGroup.due]
    cases g.printed <;> simp
  have hnetjoins : s.netjoins.filter (NetjoinGroup.due now) =
      (a.waiting.filter dueNow).map Prod.fst := by
    have hcomp : dueNow = NetjoinGroup.due now ∘ Prod.fst := rfl
    rw [hcomp, ← List.filter_map, h.waiting, List.filter_filter]
    refine List.filter_congr (fun g _ => ?_)
    rw [NetjoinGroup.due]
    cases g.printed <;> simp
  have hgathers := List.forall_mem_append.mp h.gathers
  refine ⟨⟨a.splits ++ s.groups.filter (SplitGroup.due now), a.netjoins ++ a.waiting.filter dueNow,
    a.waiting.filter (fun e => !dueNow e)⟩, ?_, ?_, ?_, ?_, ?_⟩
  · show (messages ++ ((s.groups.filter (SplitGroup.due now)).flatMap formatSplitMessages ++
      (s.netjoins.filter (NetjoinGroup.due now)).flatMap formatNetjoinMessages)).Perm _
    rw [hnetjoins, List.flatMap_map, List.flatMap_append, List.flatMap_append]
    refine (h.messages.append_right _).trans ?_
    rw [List.append_assoc, List.append_assoc]
    refine List.Perm.append_left _ ?_
    rw [← List.append_assoc, ← List.append_assoc]
    exact List.perm_append_comm.append_right _
  · rw [unprinted_tick, List.flatMap_append, List.append_assoc]
    refine h.quits.trans (List.Perm.append_left _ ?_)
    rw [hsplits, ← List.flatMap_append]
    exact (List.filter_append_perm _ _).symm.flatMap_right _
  · rw [List.flatMap_append, List.append_assoc]
    refine h.joins.trans (List.Perm.append_left _ ?_)
    rw [← List.flatMap_append]
    exact (List.filter_append_perm _ _).symm.flatMap_right _
  · rw [unprinted_netjoins_tick, ← h.waiting, List.filter_map]
    rfl
  · refine List.forall_mem_append.mpr ⟨List.forall_mem_append.mpr ⟨hgathers.1, ?_⟩, ?_⟩
    · exact fun e he => hgathers.2 e (List.mem_of_mem_filter he)
    · exact fun e he => hgathers.2 e (List.mem_of_mem_filter he)

/-- Every call keeps a balanced account. -/
theorem balanced_step (hs : InBounds s) (h : a.Balanced s quits joins messages) (op : Op) :
    ∃ a' : Account, a'.Balanced (step lower s op) (quits ++ quitOf lower s op)
      (joins ++ joinOf lower s op) (messages ++ summariesOf lower s op) := by
  cases op with
  | quit now nick message affected =>
    rw [quitOf, joinOf, summariesOf, suppresses, step, handleQuit_eq, List.append_nil,
      List.append_nil]
    cases serverPair message with
    | none => exact ⟨a, by simpa using h⟩
    | some pair => exact ⟨a, h.quit lower now nick affected pair⟩
  | join now nick bufferId =>
    rw [quitOf, joinOf, summariesOf, suppresses, step, List.append_nil, List.append_nil]
    rcases handleJoin_eq lower hs now nick bufferId with ⟨-, heq⟩ | ⟨i, g, -, -, heq⟩
    · rw [heq]
      exact ⟨a, by simpa using h⟩
    · rw [heq]
      exact h.join lower now nick bufferId g
  | tick now =>
    rw [quitOf, joinOf, List.append_nil, List.append_nil]
    exact h.tick lower now

theorem balanced_run (hs : InBounds s) (h : a.Balanced s quits joins messages) (ops : List Op) :
    ∃ a' : Account, a'.Balanced (Run.run (step lower) s ops)
      (quits ++ collect lower (quitOf lower) s ops) (joins ++ collect lower (joinOf lower) s ops)
      (messages ++ collect lower (summariesOf lower) s ops) := by
  induction ops generalizing a s quits joins messages with
  | nil => exact ⟨a, by simpa [collect] using h⟩
  | cons op ops ih =>
    obtain ⟨a', h'⟩ := balanced_step lower hs h op
    obtain ⟨a'', h''⟩ := ih (inBounds_step lower hs op) h'
    simp only [List.append_assoc] at h''
    exact ⟨a'', h''⟩

/-- No group waits to be printed. -/
def Settled (s : NetsplitState) : Prop :=
  (∀ g ∈ s.groups, g.printed = true) ∧ ∀ g ∈ s.netjoins, g.printed = true

instance (s : NetsplitState) : Decidable (Settled s) := inferInstanceAs (Decidable (_ ∧ _))

/-- A tick after a quiet time prints every group. -/
theorem settled_tick (s : NetsplitState) (now : Nat)
    (hsplits : ∀ g ∈ s.groups, g.lastQuit + splitBatchWait ≤ now)
    (hnetjoins : ∀ g ∈ s.netjoins, g.lastJoin + netjoinBatchWait ≤ now) :
    Settled (s.tick lower now).2 := by
  constructor
  · intro g hg
    obtain ⟨g₀, hg₀, rfl⟩ := List.mem_map.mp (List.mem_of_mem_filter hg)
    have hquiet := hsplits g₀ hg₀
    rw [SplitGroup.print, SplitGroup.due]
    have hdue : decide (splitBatchWait ≤ now - g₀.lastQuit) = true := by
      rw [decide_eq_true_iff]
      omega
    rw [hdue]
    cases hp : g₀.printed <;> simp [hp]
  · intro g hg
    obtain ⟨g₀, hg₀, rfl⟩ := List.mem_map.mp (List.mem_of_mem_filter hg)
    have hquiet := hnetjoins g₀ hg₀
    rw [NetjoinGroup.print, NetjoinGroup.due]
    have hdue : decide (netjoinBatchWait ≤ now - g₀.lastJoin) = true := by
      rw [decide_eq_true_iff]
      omega
    rw [hdue]
    cases hp : g₀.printed <;> simp [hp]

/-- **Netsplit accounting**: the QUITs and JOINs that a run suppresses are divided among the
groups, and the summaries of a run are those of the groups that it has printed. A group has one
summary for each buffer, which tells its nicks there. A group that has not been printed is in the
state, and is printed by a tick after a quiet time. The index points into the groups. -/
theorem netsplit_accounting (ops : List Op) :
    InBounds (Run.run (step lower) NetsplitState.new ops) ∧
      (∃ a : Account, a.Balanced (Run.run (step lower) NetsplitState.new ops)
        (collect lower (quitOf lower) NetsplitState.new ops)
        (collect lower (joinOf lower) NetsplitState.new ops)
        (collect lower (summariesOf lower) NetsplitState.new ops)) ∧
      (∀ (g : SplitGroup) buffer, messagesFor buffer (formatSplitMessages g) =
        if nicksIn buffer g.entries = [] then []
        else [⟨[buffer], g.summary (nicksIn buffer g.entries)⟩]) ∧
      (∀ (g : NetjoinGroup) buffer, messagesFor buffer (formatNetjoinMessages g) =
        if nicksIn buffer g.entries = [] then []
        else [⟨[buffer], g.summary (nicksIn buffer g.entries)⟩]) ∧
      ∀ now,
        (∀ g ∈ (Run.run (step lower) NetsplitState.new ops).groups,
          g.lastQuit + splitBatchWait ≤ now) →
        (∀ g ∈ (Run.run (step lower) NetsplitState.new ops).netjoins,
          g.lastJoin + netjoinBatchWait ≤ now) →
        Settled ((Run.run (step lower) NetsplitState.new ops).tick lower now).2 := by
  have hnew : Account.Balanced ⟨[], [], []⟩ NetsplitState.new [] [] [] :=
    ⟨List.Perm.refl _, List.Perm.refl _, List.Perm.refl _, rfl, fun e he => by cases he⟩
  refine ⟨Run.invariant (P := InBounds) (fun s op h => inBounds_step lower h op) inBounds_new ops,
    ?_,
    fun g buffer => messagesFor_channelNicks g.summary g.entries buffer,
    fun g buffer => messagesFor_channelNicks g.summary g.entries buffer,
    fun now hsplits hnetjoins => settled_tick lower _ now hsplits hnetjoins⟩
  simpa using balanced_run lower inBounds_new hnew ops

/-- The sample user splits, and the split is printed. -/
theorem netsplit_accounting_sample :
    Settled ((Run.run (step id) NetsplitState.new [sampleQuit]).tick id 5000000000).2 := by
  refine (netsplit_accounting id [sampleQuit]).2.2.2.2 5000000000 ?_ ?_
  · decide
  · decide

/-- Sixteen users split. -/
def sixteenQuits : List Op :=
  (str "abcdefghijklmnoz").map
    (fun c => .quit 0 [c] (str "hub.net leaf.net") [str "c1/#rust"])

/-- The summary does not list the last of sixteen users. -/
theorem sixteenth_not_listed :
    ⟨str "z", [str "c1/#rust"]⟩ ∈ collect id (quitOf id) NetsplitState.new
        (sixteenQuits ++ [.tick 5000000000]) ∧
      (∀ m ∈ collect id (summariesOf id) NetsplitState.new (sixteenQuits ++ [.tick 5000000000]),
        'z' ∉ m.text) ∧
      Settled (Run.run (step id) NetsplitState.new (sixteenQuits ++ [.tick 5000000000])) := by
  refine ⟨by decide, by decide, by decide⟩

end Netsplit

end Repartee
