import Tabular.Proofs.Job.EditTokens
import Tabular.Unicode.Word

/-!
# Ignored tokens

A token leaves every job as it is exactly if it begins with none of the names that are looked for at
the front of tokens, and is none of the two tokens that are looked for as a whole. Some names are
looked for without the mark that follows them in the form of the token. A longer word that begins
with such a name has none of the forms, and yet it is not ignored.
-/

namespace Tabular

namespace Text

theorem startsWith_iff {lead s : String} : startsWith lead s = true ↔ lead.toList <+: s.toList := by
  rw [startsWith, Option.isSome_iff_exists]
  exact exists_congr fun rest => dropLead?_eq_some_iff.trans eq_comm

theorem stripLead?_eq_none_iff {lead s : String} :
    stripLead? lead s = none ↔ ¬ lead.toList <+: s.toList := by
  rw [← startsWith_iff, stripLead?, startsWith, Option.map_eq_none_iff,
    Option.not_isSome_iff_eq_none]

end Text

namespace Directive

def leads : List String :=
  ["lmerge", "merge:", "row[", "col[", "ncol[", "sort[", "split:", "wrap:", "tr", "group[", "out",
    "head", "calc", "keys", "filter"]

/-- The result of reading a token: it is not taken for one that holds nothing. -/
def IsHeld (result : Except Cause Directive) : Prop :=
  result ≠ .ok nothing

theorem isHeld_error (cause : Cause) : IsHeld (.error cause) := by
  intro same
  cases same

theorem isHeld_ok {directive : Directive} (other : directive ≠ nothing) : IsHeld (.ok directive) :=
  fun same => other (Except.ok.inj same)

theorem isHeld_bind {α : Type} (result : Except Cause α) {make : α → Directive}
    (other : ∀ value, make value ≠ nothing) : IsHeld (do return make (← result)) := by
  cases result with
  | error cause => exact isHeld_error cause
  | ok value => exact isHeld_ok (other value)

theorem isHeld_ofRange (token : String) {make : Range → List String → Directive}
    (other : ∀ range options, make range options ≠ nothing) : IsHeld (ofRange token make) :=
  isHeld_bind (readRange token) fun (range, options) => other range options

theorem isHeld_readEdit (rest : String) : IsHeld (readEdit rest) := by
  unfold readEdit
  split
  · exact isHeld_error _
  · exact isHeld_error _
  · split
    · exact isHeld_error _
    · exact isHeld_bind _ fun _ => nofun

theorem isHeld_readOutput (rest : String) : IsHeld (readOutput rest) := by
  unfold readOutput
  split
  · exact isHeld_error _
  · exact isHeld_error _
  · exact isHeld_bind _ fun _ => nofun

theorem isHeld_readCondition (rest : String) : IsHeld (readCondition rest) := by
  unfold readCondition
  split
  · exact isHeld_error _
  · exact isHeld_bind _ fun _ => nofun

theorem isHeld_readFormula (token : String) : IsHeld (readFormula token) := by
  unfold readFormula
  split
  · exact isHeld_error _
  · exact isHeld_bind _ fun _ => nofun

section

variable {other : Except Cause Directive}

/-- A token that holds nothing does not pass a test behind which something is read. -/
theorem passes_ite {p : Prop} [Decidable p] {first : Except Cause Directive}
    (held : (if p then first else other) = .ok nothing) (something : IsHeld first) :
    ¬ p ∧ other = .ok nothing := by
  split at held
  · exact absurd held something
  · exact ⟨‹_›, held⟩

theorem passes_match {found : Option String} {first : String → Except Cause Directive}
    (held : (match found with | some rest => first rest | _ => other) = .ok nothing)
    (something : ∀ rest, IsHeld (first rest)) : found = none ∧ other = .ok nothing := by
  cases found with
  | some rest => exact absurd held (something rest)
  | none => exact ⟨rfl, held⟩

end

theorem readTrimmed_eq_nothing_iff {token : String} :
    readTrimmed token = .ok nothing ↔
      (∀ lead ∈ leads, ¬ lead.toList <+: token.toList) ∧ token ∉ ["-inhead", "-outhead"] := by
  constructor
  · intro held
    unfold readTrimmed at held
    dsimp only at held
    obtain ⟨lmerge, held⟩ := passes_match held fun _ => isHeld_ok nofun
    obtain ⟨merge, held⟩ := passes_match held fun _ => isHeld_ok nofun
    obtain ⟨row, held⟩ := passes_ite held (isHeld_ofRange token fun _ _ => nofun)
    obtain ⟨col, held⟩ := passes_ite held (isHeld_ofRange token fun _ _ => nofun)
    obtain ⟨ncol, held⟩ := passes_ite held (isHeld_ofRange token fun _ _ => nofun)
    obtain ⟨sort, held⟩ := passes_ite held (isHeld_ofRange token fun _ _ => nofun)
    obtain ⟨split, held⟩ := passes_match held fun _ => isHeld_ok nofun
    obtain ⟨wrap, held⟩ := passes_match held fun _ => isHeld_ok nofun
    obtain ⟨tr, held⟩ := passes_match held isHeld_readEdit
    obtain ⟨group, held⟩ := passes_ite held (isHeld_ofRange token fun _ _ => nofun)
    obtain ⟨out, held⟩ := passes_match held isHeld_readOutput
    obtain ⟨head, held⟩ := passes_ite held (isHeld_bind _ fun _ => nofun)
    obtain ⟨inhead, held⟩ := passes_ite held (isHeld_ok nofun)
    obtain ⟨outhead, held⟩ := passes_ite held (isHeld_ok nofun)
    obtain ⟨formula, held⟩ := passes_ite held (isHeld_readFormula token)
    obtain ⟨-, held⟩ := passes_ite held (isHeld_ok nofun)
    obtain ⟨keys, held⟩ := passes_ite held (isHeld_bind _ fun _ => nofun)
    obtain ⟨filter, -⟩ := passes_match held isHeld_readCondition
    rw [Text.stripLead?_eq_none_iff] at lmerge merge split wrap tr out filter
    rw [Text.startsWith_iff] at row col ncol sort group head formula keys
    refine ⟨?_, by simp [inhead, outhead]⟩
    simp only [leads, List.forall_mem_cons]
    exact ⟨lmerge, merge, row, col, ncol, sort, split, wrap, tr, group, out, head, formula, keys,
      filter, fun _ => nofun⟩
  · rintro ⟨clear, whole⟩
    have stripped (lead : String) (known : lead ∈ leads) : Text.stripLead? lead token = none :=
      Text.stripLead?_eq_none_iff.mpr (clear lead known)
    have begun (lead : String) (known : lead ∈ leads) : Text.startsWith lead token = false :=
      Bool.eq_false_iff.mpr fun begins => clear lead known (Text.startsWith_iff.mp begins)
    have noKeys : token ≠ "keys" := by
      rintro rfl
      exact clear "keys" (by decide) (List.prefix_refl _)
    obtain ⟨inhead, outhead⟩ : token ≠ "-inhead" ∧ token ≠ "-outhead" := by simpa using whole
    simp only [readTrimmed, stripped "lmerge" (by decide), stripped "merge:" (by decide),
      begun "row[" (by decide), begun "col[" (by decide), begun "ncol[" (by decide),
      begun "sort[" (by decide), stripped "split:" (by decide), stripped "wrap:" (by decide),
      stripped "tr" (by decide), begun "group[" (by decide), stripped "out" (by decide),
      begun "head" (by decide), begun "calc" (by decide), begun "keys" (by decide),
      stripped "filter" (by decide), noKeys, inhead, outhead, Bool.false_eq_true, if_false]

/-- The tokens with a form of their own. -/
def wholeForms : List String :=
  ["lmerge", "-inhead", "-outhead", "keys"]

/-- What a token begins with that gives a text or a body in brackets. -/
def markedForms : List String :=
  ["lmerge:", "merge:", "split:", "wrap:", "row[", "col[", "ncol[", "sort[", "group[", "head[",
    "keys["]

def separatedForms : List String :=
  ["tr", "out", "filter"]

inductive HasForm (token : String) : Prop
  | whole (known : token ∈ wholeForms)
  | marked {lead : String} (known : lead ∈ markedForms) (begins : lead.toList <+: token.toList)
  | formula (opens : "calc(".toList <+: token.toList) (closes : [')'] <:+ token.toList)
  | separated {name : String} {separator : Char} (known : name ∈ separatedForms)
      (begins : name.toList ++ [separator] <+: token.toList)
      (apart : Unicode.isAlphanumeric separator.toNat = false)

theorem not_hasForm {token : String} (whole : token ∉ wholeForms)
    (marked : ∀ lead ∈ markedForms, ¬ lead.toList <+: token.toList)
    (formula : ¬ "calc(".toList <+: token.toList)
    (separated : ∀ name ∈ separatedForms, ¬ name.toList <+: token.toList) : ¬ HasForm token := by
  rintro (known | ⟨known, begins⟩ | ⟨opens, -⟩ | ⟨known, begins, -⟩)
  · exact whole known
  · exact marked _ known begins
  · exact formula opens
  · exact separated _ known ((List.prefix_append _ _).trans begins)

/-- The names that are looked for without the mark that follows them. -/
def bareNames : List String :=
  ["lmerge", "tr", "out", "head", "calc", "keys", "filter"]

/-- Of the texts that are looked for, a token without a form can begin with a bare name only. -/
theorem forall_leads_iff {token : String} (formless : ¬ HasForm token) :
    ((∀ lead ∈ leads, ¬ lead.toList <+: token.toList) ∧ token ∉ ["-inhead", "-outhead"]) ↔
      ∀ name ∈ bareNames, ¬ name.toList <+: token.toList := by
  constructor
  · rintro ⟨clear, -⟩ name known
    have inside : bareNames ⊆ leads := by decide
    exact clear name (inside known)
  · intro clear
    refine ⟨fun lead known begins => ?_, fun known => ?_⟩
    · have either : ∀ lead ∈ leads, lead ∈ bareNames ∨ lead ∈ markedForms := by decide
      rcases either lead known with bare | marked
      · exact clear lead bare begins
      · exact formless (.marked marked begins)
    · have inside : ["-inhead", "-outhead"] ⊆ wholeForms := by decide
      exact formless (.whole (inside known))

end Directive

namespace Job

open Directive

theorem not_kept_of_set {α : Type} (part : Job → α) (first second : Job) {directive : Directive}
    (differ : part first ≠ part second)
    (set : part (first.apply directive) = part (second.apply directive)) :
    ¬ ∀ job : Job, job.apply directive = job := by
  intro kept
  rw [kept, kept] at set
  exact differ set

/-- Every directive but the empty one changes some job. -/
theorem forall_apply_eq_self_iff {directive : Directive} :
    (∀ job : Job, job.apply directive = job) ↔ directive = .nothing := by
  constructor
  · intro kept
    cases directive with
    | nothing => rfl
    | joinLines | wrap | group | sort | labels | keys | condition | headless | hideLabels
    | formula => cases kept (ofMode .csv)
    | edit column edit =>
      have same := congrArg (fun job : Job => job.selection.editsAt column) (kept (ofMode .csv))
      have added := Selection.editsAt_addEdit_self (ofMode .csv).selection column edit
      exact absurd (added.symm.trans same) (by simp)
    | join =>
      exact absurd kept (not_kept_of_set joining (ofMode .csv) (ofMode .jsonLines) (by decide) rfl)
    | split =>
      exact absurd kept (not_kept_of_set splitting (ofMode .csv)
        { ofMode .csv with splitting := .csv } (by decide) rfl)
    | rows =>
      exact absurd kept (not_kept_of_set rows (ofMode .csv)
        { ofMode .csv with rows := .ofIndices [] } (by decide) rfl)
    | columns =>
      exact absurd kept (not_kept_of_set (·.selection.columns) (ofMode .csv)
        { ofMode .csv with selection := ⟨.ofIndices [], []⟩ } (by decide) rfl)
    | output =>
      exact absurd kept (not_kept_of_set form (ofMode .csv) (ofMode .json) (by decide) rfl)
  · rintro rfl job
    rfl

theorem forall_applyToken_eq_self_iff {token : String} :
    (∀ (job : Job) (index : Nat), job.applyToken index token = .ok job) ↔
      read token = .ok .nothing := by
  constructor
  · intro kept
    cases found : read token with
    | error cause =>
      have rejected := kept (ofMode .csv) 0
      rw [applyToken, found] at rejected
      cases rejected
    | ok directive =>
      refine congrArg Except.ok (forall_apply_eq_self_iff.mp fun job => ?_)
      have same := kept job 0
      rw [applyToken, found] at same
      exact Except.ok.inj same
  · intro held job index
    rw [applyToken, held]
    rfl

/-- A token that has none of the forms when the blanks around it are taken away is ignored by every
job exactly if it begins with none of the bare names. -/
theorem applyToken_ignores_iff {token : String} (formless : ¬ HasForm (Text.trim token)) :
    (∀ (job : Job) (index : Nat), job.applyToken index token = .ok job) ↔
      ∀ name ∈ bareNames, ¬ name.toList <+: (Text.trim token).toList := by
  rw [forall_applyToken_eq_self_iff, Directive.read, readTrimmed_eq_nothing_iff,
    forall_leads_iff formless]

/-- A name without the bracket or the text that belongs to it is no bare name. -/
theorem applyToken_ignores_iff_sorted :
    let token := " sorted..[0]\t"
    let job := { ofMode .csv with sorting := some ⟨.ofIndices [1], true⟩ }
    ¬ HasForm (Text.trim token) ∧
    (∀ name ∈ bareNames, ¬ name.toList <+: (Text.trim token).toList) ∧
    job.applyToken 2 token = .ok job := by
  intro token job
  have formless : ¬ HasForm (Text.trim token) :=
    not_hasForm (by decide) (by decide) (by decide) (by decide)
  have clear : ∀ name ∈ bareNames, ¬ name.toList <+: (Text.trim token).toList := by decide
  exact ⟨formless, clear, (applyToken_ignores_iff formless).mpr clear job 2⟩

/-- Two words without a form: one is taken for the name that it begins with, and the other one is
rejected. -/
theorem applyToken_takes_words :
    (¬ HasForm (Text.trim "lmerged") ∧
      (ofMode .csv).applyToken 0 "lmerged" = .ok { ofMode .csv with lineJoiner := some "," } ∧
      (ofMode .csv).applyToken 0 "lmerged" ≠ .ok (ofMode .csv)) ∧
    (¬ HasForm (Text.trim "header") ∧
      (ofMode .csv).applyToken 0 "header" = .error (.atToken 0 (.malformedToken "header" 6)) ∧
      (ofMode .csv).applyToken 0 "header" ≠ .ok (ofMode .csv)) := by
  have joins : (ofMode .csv).applyToken 0 "lmerged" =
      .ok { ofMode .csv with lineJoiner := some "," } := by
    rfl
  have fails : (ofMode .csv).applyToken 0 "header" =
      .error (.atToken 0 (.malformedToken "header" 6)) := by
    rfl
  refine ⟨⟨?_, joins, ?_⟩, ?_, fails, ?_⟩
  · exact not_hasForm (by decide) (by decide) (by decide) (by decide)
  · rw [joins, ne_eq, Except.ok.injEq]
    exact fun same => absurd (congrArg lineJoiner same) (by decide)
  · exact not_hasForm (by decide) (by decide) (by decide) (by decide)
  · rw [fails]
    exact nofun

end Job

end Tabular
