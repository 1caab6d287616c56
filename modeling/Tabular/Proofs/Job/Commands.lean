import Tabular.Job.Reader
import Mathlib.Data.List.Forall2

/-!
# The directives of a command

A command is accepted exactly when each of its tokens holds a directive, and its job is then that of
the directives alone. One more sorting can be put anywhere among the tokens of a command that sorts
nothing, and it changes the sorting only.
-/

namespace Tabular

/-- The directives that some tokens hold. -/
abbrev Directive.Held (tokens : List String) (directives : List Directive) : Prop :=
  List.Forall₂ (fun token directive => Directive.read token = .ok directive) tokens directives

theorem Directive.held_append_iff {before after : List String} {directives : List Directive} :
    Held (before ++ after) directives ↔
      ∃ first second, Held before first ∧ Held after second ∧ directives = first ++ second := by
  induction before generalizing directives with
  | nil => simp [Held]
  | cons token before ih =>
    constructor
    · intro held
      cases held with
      | cons here rest =>
        obtain ⟨first, second, heldFirst, heldSecond, rfl⟩ := ih.mp rest
        exact ⟨_ :: first, second, .cons here heldFirst, heldSecond, rfl⟩
    · rintro ⟨first, second, heldFirst, heldSecond, rfl⟩
      cases heldFirst with
      | cons here rest => exact .cons here (ih.mpr ⟨_, second, rest, heldSecond, rfl⟩)

namespace Job

def carryOut (job : Job) (directives : List Directive) : Job :=
  directives.foldl apply job

@[simp] theorem carryOut_cons (job : Job) (directive : Directive) (directives : List Directive) :
    job.carryOut (directive :: directives) = (job.apply directive).carryOut directives := rfl

@[simp] theorem carryOut_append (job : Job) (first second : List Directive) :
    job.carryOut (first ++ second) = (job.carryOut first).carryOut second :=
  List.foldl_append

theorem applyTokens_eq_ok_iff {job result : Job} {index : Nat} {tokens : List String} :
    job.applyTokens index tokens = .ok result ↔
      ∃ directives, Directive.Held tokens directives ∧ job.carryOut directives = result := by
  induction tokens generalizing job index with
  | nil =>
    constructor
    · intro accepted
      cases accepted
      exact ⟨[], .nil, rfl⟩
    · rintro ⟨directives, held, rfl⟩
      cases held
      rfl
  | cons token tokens ih =>
    cases found : Directive.read token with
    | error cause =>
      constructor
      · intro accepted
        simp [applyTokens, applyToken, found, bind, Except.bind] at accepted
      · rintro ⟨directives, held, -⟩
        cases held with
        | cons first rest => simp [found] at first
    | ok directive =>
      have step : job.applyTokens index (token :: tokens) =
          (job.apply directive).applyTokens (index + 1) tokens := by
        simp [applyTokens, applyToken, found, bind, Except.bind]
      rw [step, ih]
      constructor
      · rintro ⟨directives, held, done⟩
        exact ⟨directive :: directives, .cons found held, done⟩
      · rintro ⟨directives, held, done⟩
        cases held with
        | cons first rest =>
          cases found.symm.trans first
          exact ⟨_, rest, done⟩

theorem ofTokens_eq_ok_iff {mode : Mode} {tokens : List String} {job : Job} :
    ofTokens mode tokens = .ok job ↔
      ∃ directives, Directive.Held tokens directives ∧
        ((ofMode mode).carryOut directives).settleLabels = job := by
  have settled : ofTokens mode tokens =
      ((ofMode mode).applyTokens 0 tokens).map settleLabels := by
    unfold ofTokens
    cases (ofMode mode).applyTokens 0 tokens <;> rfl
  rw [settled]
  constructor
  · intro accepted
    cases read : (ofMode mode).applyTokens 0 tokens with
    | error fault => simp [read, Except.map] at accepted
    | ok result =>
      obtain ⟨directives, held, done⟩ := applyTokens_eq_ok_iff.mp read
      rw [read, Except.map, Except.ok.injEq] at accepted
      exact ⟨directives, held, by rw [done, accepted]⟩
  · rintro ⟨directives, held, rfl⟩
    rw [applyTokens_eq_ok_iff.mpr ⟨directives, held, rfl⟩]
    rfl

@[simp] theorem mode_apply (job : Job) (directive : Directive) :
    (job.apply directive).mode = job.mode := by
  cases directive <;> rfl

@[simp] theorem mode_settleLabels (job : Job) : job.settleLabels.mode = job.mode := by
  unfold settleLabels
  split <;> rfl

theorem mode_carryOut (job : Job) (directives : List Directive) :
    (job.carryOut directives).mode = job.mode := by
  induction directives generalizing job with
  | nil => rfl
  | cons directive directives ih => exact (ih _).trans (mode_apply job directive)

theorem mode_of_ofTokens {mode : Mode} {tokens : List String} {job : Job}
    (accepted : ofTokens mode tokens = .ok job) : job.mode = mode := by
  obtain ⟨directives, -, rfl⟩ := ofTokens_eq_ok_iff.mp accepted
  rw [mode_settleLabels, mode_carryOut]
  cases mode <;> rfl

theorem isSome_sorting_apply {job : Job} (directive : Directive) (h : job.sorting.isSome) :
    (job.apply directive).sorting.isSome := by
  cases directive <;> first | exact h | rfl

theorem isSome_sorting_carryOut {job : Job} (directives : List Directive)
    (h : job.sorting.isSome) : (job.carryOut directives).sorting.isSome := by
  induction directives generalizing job with
  | nil => exact h
  | cons directive directives ih => exact ih (isSome_sorting_apply directive h)

theorem apply_sort_comm {job : Job} {directive : Directive} (sorting : Sorting)
    (unsorted : (job.apply directive).sorting = none) :
    (job.apply (.sort sorting)).apply directive = (job.apply directive).apply (.sort sorting) := by
  cases directive with
  | sort earlier => cases unsorted
  | _ => rfl

theorem carryOut_sort {job : Job} {directives : List Directive} (sorting : Sorting)
    (unsorted : (job.carryOut directives).sorting = none) :
    (job.apply (.sort sorting)).carryOut directives =
      { job.carryOut directives with sorting := some sorting } := by
  induction directives generalizing job with
  | nil => rfl
  | cons directive directives ih =>
    rw [carryOut_cons] at unsorted ⊢
    have here : (job.apply directive).sorting = none := by
      by_contra sorted
      have kept := isSome_sorting_carryOut directives (Option.isSome_iff_ne_none.mpr sorted)
      simp [unsorted] at kept
    rw [apply_sort_comm sorting here]
    exact ih unsorted

theorem sorting_settleLabels (job : Job) : job.settleLabels.sorting = job.sorting := by
  unfold settleLabels
  split <;> rfl

theorem settleLabels_sorting (job : Job) (sorting : Option Sorting) :
    { job with sorting }.settleLabels = { job.settleLabels with sorting } := by
  unfold settleLabels
  split <;> rfl

/-- A sorting can be added anywhere to a command that sorts nothing. -/
theorem ofTokens_insert_sort {mode : Mode} {before after : List String} {token : String}
    {sorting : Sorting} {job : Job} (sorts : Directive.read token = .ok (.sort sorting))
    (accepted : ofTokens mode (before ++ after) = .ok job) (unsorted : job.sorting = none) :
    ofTokens mode (before ++ token :: after) = .ok { job with sorting := some sorting } := by
  obtain ⟨directives, held, rfl⟩ := ofTokens_eq_ok_iff.mp accepted
  obtain ⟨first, second, heldBefore, heldAfter, rfl⟩ := Directive.held_append_iff.mp held
  rw [sorting_settleLabels, carryOut_append] at unsorted
  refine ofTokens_eq_ok_iff.mpr ⟨first ++ .sort sorting :: second, ?_, ?_⟩
  · exact Directive.held_append_iff.mpr ⟨first, _, heldBefore, .cons sorts heldAfter, rfl⟩
  · rw [carryOut_append, carryOut_cons, carryOut_sort sorting unsorted, settleLabels_sorting,
      carryOut_append]

end Job

end Tabular
