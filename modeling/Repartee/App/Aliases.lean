import Repartee.App.Commands
import Repartee.Lib.Split
import Repartee.Lib.Template

/-!
# What an alias runs

`expand_alias_template` replaces one variable after the other, and `execute_command_with_depth`
cuts what comes of it at the semicolons.

## Main definitions

- `AliasVar`: the variables, in the order of the replacements
- `commandsOf`: the commands that an expansion is cut into
- `intendedCommands`: the template cut at its semicolons, with its variables instantiated at once

## Main results

- `expandAliasTemplate_eq`: the replacements are those of the variables
- `arguments_are_data`: when arguments are data
-/

set_option autoImplicit false

namespace Repartee

open Template (Token tokens instantiate)

/-! ### The variables -/

inductive ContextVar where
  | channel
  | nick
  | server
  | target
  deriving DecidableEq

def ContextVar.letter : ContextVar → Char
  | .channel => 'C'
  | .nick => 'N'
  | .server => 'S'
  | .target => 'T'

inductive AliasVar where
  | braced (v : ContextVar)
  | plain (v : ContextVar)
  | range (i : Nat)
  | star
  | dash
  | arg (i : Nat)
  deriving DecidableEq

/-- How a variable is written. -/
def AliasVar.source : AliasVar → Str
  | .braced v => ['$', '{', v.letter, '}']
  | .plain v => ['$', v.letter]
  | .range i => '$' :: (fmtNat i ++ ['-'])
  | .star => ['$', '*']
  | .dash => ['$', '-']
  | .arg i => '$' :: fmtNat i

/-- What the variables of a template stand for. -/
structure AliasContext where
  args : List Str
  channel : Str
  nick : Str
  server : Str
  deriving DecidableEq

def AliasContext.context (ctx : AliasContext) : ContextVar → Str
  | .channel => ctx.channel
  | .nick => ctx.nick
  | .server => ctx.server
  | .target => ctx.channel

def AliasContext.value (ctx : AliasContext) : AliasVar → Str
  | .braced v => ctx.context v
  | .plain v => ctx.context v
  | .range i => joinSpace (ctx.args.drop i)
  | .star => joinSpace ctx.args
  | .dash => joinSpace ctx.args
  | .arg i => ctx.args.getD i []

/-- The variables, in the order in which they are replaced. -/
def aliasVars : List AliasVar :=
  [.braced .channel, .plain .channel, .braced .nick, .plain .nick, .braced .server, .plain .server,
    .braced .target, .plain .target] ++ aliasDigits.map .range ++ [.star, .dash] ++
    aliasDigits.map .arg

/-- `$*` is appended to a template without variables. -/
def aliasBody (template : Str) : Str :=
  if template.contains '$' then template else template ++ str " $*"

/-! ### The commands -/

/-- The trimmed parts between the semicolons that are not empty. -/
def commandsOf (expanded : Str) : List Str :=
  ((expanded.splitOnP (fun c => c = ';')).map Text.trim).filter (fun s => !s.isEmpty)

/-- A part of a template with its variables instantiated at once. -/
def instantiated (ctx : AliasContext) (part : Str) : Str :=
  instantiate ctx.value (tokens AliasVar.source aliasVars part)

/-- The template is cut at its semicolons, and then the variables of the parts instantiated. -/
def intendedCommands (template : Str) (ctx : AliasContext) : List Str :=
  ((((aliasBody template).splitOnP (fun c => c = ';')).map (instantiated ctx)).map
    Text.trim).filter (fun s => !s.isEmpty)

/-- Whether the template has a variable. -/
def Uses (template : Str) (x : AliasVar) : Prop :=
  .var x ∈ tokens AliasVar.source aliasVars (aliasBody template)

/-- When its turn comes, every variable is written only where the template has it: none of the
values put in before contains it, or makes it up with what is beside it. -/
def NoneMadeUp (template : Str) (ctx : AliasContext) : Prop :=
  Template.Undisturbed AliasVar.source ctx.value
    (tokens AliasVar.source aliasVars (aliasBody template)) [] aliasVars

instance (template : Str) (ctx : AliasContext) : Decidable (NoneMadeUp template ctx) :=
  inferInstanceAs (Decidable (Template.Undisturbed _ _ _ _ _))

theorem source_ne_nil (x : AliasVar) : x.source ≠ [] := by
  cases x <;> exact List.cons_ne_nil _ _

theorem nodup_aliasVars : aliasVars.Nodup := by decide

theorem notMem_source : ∀ x ∈ aliasVars, ';' ∉ x.source := by decide +kernel

/-- The replacements are those of the variables, in order. -/
theorem expandAliasTemplate_eq (template : Str) (ctx : AliasContext) :
    expandAliasTemplate template ctx.args ctx.channel ctx.nick ctx.server =
      Text.trim (Text.replaceEach AliasVar.source ctx.value aliasVars (aliasBody template)) := by
  have hcontext : ∀ s, [("${C}", ctx.channel), ("$C", ctx.channel), ("${N}", ctx.nick),
      ("$N", ctx.nick), ("${S}", ctx.server), ("$S", ctx.server), ("${T}", ctx.channel),
      ("$T", ctx.channel)].foldl (fun body r => Text.replace (str r.1) r.2 body) s =
        Text.replaceEach AliasVar.source ctx.value [.braced .channel, .plain .channel,
          .braced .nick, .plain .nick, .braced .server, .plain .server, .braced .target,
          .plain .target] s := by
    intro s
    have hbraced : str "${C}" = (AliasVar.braced .channel).source ∧
        str "${N}" = (AliasVar.braced .nick).source ∧
        str "${S}" = (AliasVar.braced .server).source ∧
        str "${T}" = (AliasVar.braced .target).source := by decide
    have hplain : str "$C" = (AliasVar.plain .channel).source ∧
        str "$N" = (AliasVar.plain .nick).source ∧
        str "$S" = (AliasVar.plain .server).source ∧
        str "$T" = (AliasVar.plain .target).source := by decide
    simp only [Text.replaceEach, List.foldl_cons, List.foldl_nil, hbraced, hplain]
    rfl
  have hdigits : ∀ (f : Nat → AliasVar) (s : Str),
      Text.replaceEach AliasVar.source ctx.value (aliasDigits.map f) s =
        aliasDigits.foldl (fun body i => Text.replace (f i).source (ctx.value (f i)) body) s :=
    fun f s => List.foldl_map
  have hall : ∀ s, Text.replaceEach AliasVar.source ctx.value [.star, .dash] s =
      Text.replace (str "$-") (joinSpace ctx.args)
        (Text.replace (str "$*") (joinSpace ctx.args) s) := by
    intro s
    have hstar : str "$*" = AliasVar.star.source ∧ str "$-" = AliasVar.dash.source := by decide
    rw [hstar.1, hstar.2]
    rfl
  rw [aliasVars, Text.replaceEach_append, Text.replaceEach_append, Text.replaceEach_append,
    ← hcontext, hdigits, hdigits, hall, expandAliasTemplate]
  rfl

/-! ### Parts -/

variable {template : Str} {ctx : AliasContext}

theorem not_isWhitespace_semicolon :
    ∀ c, decide (c = ';') = true → Text.isWhitespace c = false := by
  intro c hc
  rw [of_decide_eq_true hc]
  decide

theorem commandsOf_trim (s : Str) : commandsOf (Text.trim s) = commandsOf s := by
  rw [commandsOf, Text.map_trim_splitOnP_trim not_isWhitespace_semicolon]
  rfl

/-- A character of the template is one of the text. -/
theorem mem_of_lit_mem {c : Char} {s : Str} (h : .lit c ∈ tokens AliasVar.source aliasVars s) :
    c ∈ s := by
  rw [← @Template.written_nil_tokens _ AliasVar.source AliasVar.source aliasVars _
    (fun x _ => source_ne_nil x) s]
  exact List.mem_flatMap.mpr ⟨.lit c, h, List.mem_cons_self⟩

/-- Values without a semicolon put none in. -/
theorem notMem_instantiated {s : Str} (hs : ';' ∉ s)
    (h : ∀ x, .var x ∈ tokens AliasVar.source aliasVars s → ';' ∉ ctx.value x) :
    ';' ∉ instantiated ctx s := by
  intro hmem
  obtain ⟨tok, htok, hc⟩ := List.mem_flatMap.mp hmem
  cases tok with
  | lit c =>
    obtain rfl := List.mem_singleton.mp hc
    exact hs (mem_of_lit_mem htok)
  | var x => exact h x htok hc

theorem instantiated_append (ctx : AliasContext) (s t : Str) :
    instantiated ctx (s ++ ';' :: t) = instantiated ctx s ++ ';' :: instantiated ctx t := by
  rw [instantiated, Template.tokens_append_stop (fun x _ => source_ne_nil x) notMem_source,
    instantiate, List.flatMap_append, List.flatMap_cons]
  rfl

/-- Cutting the template is cutting the text, if the values have no semicolon. -/
theorem splitOnP_instantiated {s : Str}
    (h : ∀ x, .var x ∈ tokens AliasVar.source aliasVars s → ';' ∉ ctx.value x) :
    (instantiated ctx s).splitOnP (fun c => c = ';') =
      (s.splitOnP (fun c => c = ';')).map (instantiated ctx) := by
  induction s using Text.splitOnP_induction (fun c => c = ';') with
  | part s hs =>
    have hnot : ';' ∉ s := fun hmem => by simpa using hs ';' hmem
    have hnot' := notMem_instantiated hnot h
    rw [List.splitOnP_eq_singleton hs, List.map_singleton, List.splitOnP_eq_singleton]
    intro c hc
    rw [decide_eq_false_iff_not]
    rintro rfl
    exact hnot' hc
  | more w c t hw hc ih =>
    obtain rfl : c = ';' := of_decide_eq_true hc
    rw [Template.tokens_append_stop (fun x _ => source_ne_nil x) notMem_source] at h
    have hnot : ';' ∉ w := fun hmem => by simpa using hw ';' hmem
    have hnot' := notMem_instantiated hnot (fun x hx => h x (List.mem_append_left _ hx))
    have hw' : ∀ d ∈ instantiated ctx w, decide (d = ';') = false := by
      intro d hd
      rw [decide_eq_false_iff_not]
      rintro rfl
      exact hnot' hd
    rw [instantiated_append, List.splitOnP_append_cons_of_forall_mem hw' ';' hc,
      List.splitOnP_append_cons_of_forall_mem hw ';' hc, List.map_cons,
      ih (fun x hx => h x (List.mem_append_right _ (List.mem_cons_of_mem _ hx)))]

/-- A variable of the template is in one of its parts. -/
theorem exists_part {s : Str} {x : AliasVar}
    (h : .var x ∈ tokens AliasVar.source aliasVars s) :
    ∃ part ∈ s.splitOnP (fun c => c = ';'), .var x ∈ tokens AliasVar.source aliasVars part := by
  induction s using Text.splitOnP_induction (fun c => c = ';') with
  | part s hs => exact ⟨s, by rw [List.splitOnP_eq_singleton hs]; exact List.mem_cons_self, h⟩
  | more w c t hw hc ih =>
    obtain rfl : c = ';' := of_decide_eq_true hc
    rw [Template.tokens_append_stop (fun x _ => source_ne_nil x) notMem_source] at h
    rw [List.splitOnP_append_cons_of_forall_mem hw ';' hc]
    rcases List.mem_append.mp h with h | h
    · exact ⟨w, List.mem_cons_self, h⟩
    · obtain ⟨part, hpart, hx⟩ := ih ((List.mem_cons.mp h).resolve_left (fun heq => nomatch heq))
      exact ⟨part, List.mem_cons_of_mem w hpart, hx⟩

/-! ### Arguments as data -/

/-- If nothing is made up and no value has a semicolon, the intended commands are run. -/
theorem commandsOf_expand (hmade : NoneMadeUp template ctx)
    (hsemi : ∀ x, Uses template x → ';' ∉ ctx.value x) :
    commandsOf (expandAliasTemplate template ctx.args ctx.channel ctx.nick ctx.server) =
      intendedCommands template ctx := by
  rw [expandAliasTemplate_eq, commandsOf_trim,
    Template.replaceEach_tokens (fun x _ => source_ne_nil x) nodup_aliasVars hmade]
  have hsplit := splitOnP_instantiated hsemi
  rw [instantiated] at hsplit
  rw [commandsOf, hsplit]
  rfl

/-- A value with a semicolon is not left in one piece. -/
theorem notMem_value_of_eq
    (h : commandsOf (expandAliasTemplate template ctx.args ctx.channel ctx.nick ctx.server) =
      intendedCommands template ctx) :
    ∀ x, Uses template x → ';' ∉ ctx.value x := by
  intro x hx hmem
  obtain ⟨part, hpart, hx⟩ := exists_part hx
  have hinst : ';' ∈ instantiated ctx part := List.mem_flatMap.mpr ⟨.var x, hx, hmem⟩
  have htrim := Text.mem_trim hinst (by decide)
  have hcommand : Text.trim (instantiated ctx part) ∈ intendedCommands template ctx := by
    refine List.mem_filter.mpr ⟨List.mem_map_of_mem (List.mem_map_of_mem hpart), ?_⟩
    simp [List.ne_nil_of_mem htrim]
  rw [← h, commandsOf] at hcommand
  obtain ⟨w, hw, heq⟩ := List.mem_map.mp (List.mem_filter.mp hcommand).1
  rw [← heq] at htrim
  simpa using Text.sep_of_mem_splitOnP hw ';' ((Text.trim_infix w).subset htrim)

/-- **Arguments are data** if no variable is made up by the values of others and no value that is
used has a semicolon; a semicolon always cuts. -/
theorem arguments_are_data (template : Str) (ctx : AliasContext) :
    (NoneMadeUp template ctx ∧ (∀ x, Uses template x → ';' ∉ ctx.value x) →
      commandsOf (expandAliasTemplate template ctx.args ctx.channel ctx.nick ctx.server) =
        intendedCommands template ctx) ∧
    (commandsOf (expandAliasTemplate template ctx.args ctx.channel ctx.nick ctx.server) =
        intendedCommands template ctx →
      ∀ x, Uses template x → ';' ∉ ctx.value x) :=
  ⟨fun h => commandsOf_expand h.1 h.2, notMem_value_of_eq⟩

/-- A dollar sign that begins no variable is data like any other, and so is a variable that comes
before the one it is the value of. -/
theorem dollars_are_data :
    commandsOf (expandAliasTemplate (str "/msg $0 $1-; /me waves at $0")
        [str "bob", str "5$ and", str "$C"] (str "#rust") (str "me") (str "libera")) =
      intendedCommands (str "/msg $0 $1-; /me waves at $0")
        ⟨[str "bob", str "5$ and", str "$C"], str "#rust", str "me", str "libera"⟩ := by
  refine (arguments_are_data _
    ⟨[str "bob", str "5$ and", str "$C"], str "#rust", str "me", str "libera"⟩).1
    ⟨by decide +kernel, fun x hx => ?_⟩
  have hused : ∀ tok ∈ tokens AliasVar.source aliasVars
      (aliasBody (str "/msg $0 $1-; /me waves at $0")),
      tok = .var (.arg 0) ∨ tok = .var (.range 1) ∨
        tok ∈ (str "/msg ; /me waves at ").map Token.lit := by
    decide +kernel
  rcases hused _ hx with h | h | h
  · rw [Token.var.inj h]
    decide
  · rw [Token.var.inj h]
    decide
  · obtain ⟨_, _, h⟩ := List.mem_map.mp h
    cases h

/-- An argument with a semicolon runs a second command. -/
theorem argument_runs_a_command :
    ¬ ∀ args, commandsOf (expandAliasTemplate (str "/msg $0 hi") args [] [] []) =
      intendedCommands (str "/msg $0 hi") ⟨args, [], [], []⟩ := by
  intro h
  exact absurd (h [str "bob;/quit"]) (by decide +kernel)

end Repartee
