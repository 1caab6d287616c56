import Tabular.Proofs.Job.Commands
import Tabular.Proofs.Keyed

/-!
# The order of tokens

Every directive is about one matter, and directives about different matters change different parts
of a job, so they can be carried out in either order. A reordering of tokens that keeps the order
among the tokens about each matter is made of such exchanges and leads to the same job.
-/

namespace Tabular

section

variable {α κ σ : Type} {step : σ → α → σ} {matter : α → κ}

theorem foldl_step_comm
    (comm : ∀ state x y, matter x ≠ matter y → step (step state x) y = step (step state y) x)
    {before : List α} {item : α} (others : ∀ x ∈ before, matter x ≠ matter item) (state : σ) :
    step (before.foldl step state) item = before.foldl step (step state item) := by
  induction before generalizing state with
  | nil => rfl
  | cons first before ih =>
    obtain ⟨apart, others⟩ := List.forall_mem_cons.mp others
    rw [List.foldl_cons, List.foldl_cons, ih others, comm state first item apart]

/-- Where steps on different matters commute, only the order on each matter counts. -/
theorem foldl_eq_of_filter_eq [DecidableEq κ]
    (comm : ∀ state x y, matter x ≠ matter y → step (step state x) y = step (step state y) x)
    {first second : List α}
    (same : ∀ k, first.filter (matter · = k) = second.filter (matter · = k)) (state : σ) :
    first.foldl step state = second.foldl step state := by
  induction first generalizing second state with
  | nil =>
    have none : second = [] := by
      refine List.eq_nil_iff_forall_not_mem.mpr fun item member => ?_
      have kept := (same (matter item)).symm
      rw [List.filter_nil, List.filter_eq_nil_iff] at kept
      exact kept item member (by simp)
    rw [none]
  | cons item first ih =>
    -- The item is the first one on its matter in the other list too.
    have found := (same (matter item)).symm
    rw [List.filter_cons_of_pos (by simp), List.filter_eq_cons_iff] at found
    obtain ⟨before, after, rfl, others, -, rest⟩ := found
    have others : ∀ x ∈ before, matter x ≠ matter item := by simpa using others
    have remaining (k : κ) :
        first.filter (matter · = k) = (before ++ after).filter (matter · = k) := by
      have here := same k
      by_cases own : matter item = k
      · subst own
        have none : before.filter (matter · = matter item) = [] :=
          List.filter_eq_nil_iff.mpr (by simpa using others)
        rw [List.filter_append, none, List.nil_append, rest]
      · simpa [List.filter_append, List.filter_cons, own] using here
    rw [List.foldl_cons, ih remaining, List.foldl_append, List.foldl_append, List.foldl_cons,
      foldl_step_comm comm others]

end

/-- What a directive is about. The edits of each column are a matter of their own. -/
inductive Matter where
  | lineJoining
  | joining
  | splitting
  | wrapping
  | rows
  | columns
  | edits (column : Nat)
  | grouping
  | sorting
  | output
  | labels
  | formulas
  | keys
  | condition
  | reading
  | showing
  | nothing
  deriving DecidableEq, Repr

namespace Directive

def matter : Directive → Matter
  | joinLines _ => .lineJoining
  | join _ => .joining
  | split _ => .splitting
  | wrap _ => .wrapping
  | rows _ => .rows
  | columns _ => .columns
  | edit column _ => .edits column
  | group _ => .grouping
  | sort _ => .sorting
  | output _ _ => .output
  | labels _ => .labels
  | formula _ => .formulas
  | keys _ => .keys
  | condition _ => .condition
  | headless => .reading
  | hideLabels => .showing
  | nothing => .nothing

def read? (token : String) : Option Directive :=
  (read token).toOption

/-- What a token is about, if it holds a directive. -/
def matter? (token : String) : Option Matter :=
  (read? token).map matter

theorem read?_eq_some_iff {token : String} {directive : Directive} :
    read? token = some directive ↔ read token = .ok directive := by
  cases found : read token <;> simp [read?, found, Except.toOption]

theorem held_iff {tokens : List String} {directives : List Directive} :
    Held tokens directives ↔
      (∀ token ∈ tokens, (matter? token).isSome) ∧ directives = tokens.filterMap read? := by
  induction tokens generalizing directives with
  | nil => simp [Held]
  | cons token tokens ih =>
    simp only [Held, List.forall₂_cons_left_iff, ← read?_eq_some_iff] at ih ⊢
    cases found : read? token with
    | none => simp [matter?, found]
    | some directive => simp [matter?, found, ih]

theorem filter_filterMap_read? (matter : Matter) (tokens : List String) :
    (tokens.filterMap read?).filter (·.matter = matter) =
      (tokens.filter (matter? · = some matter)).filterMap read? := by
  induction tokens with
  | nil => rfl
  | cons token tokens ih =>
    cases found : read? token with
    | none =>
      have other : matter? token ≠ some matter := by simp [matter?, found]
      rw [List.filterMap_cons_none found, ih, List.filter_cons_of_neg (by simpa using other)]
    | some directive =>
      have about : matter? token = some directive.matter := by simp [matter?, found]
      rw [List.filterMap_cons_some found]
      by_cases own : directive.matter = matter
      · rw [List.filter_cons_of_pos (by simpa using own),
          List.filter_cons_of_pos (by simpa [about] using own), List.filterMap_cons_some found, ih]
      · rw [List.filter_cons_of_neg (by simpa using own),
          List.filter_cons_of_neg (by simpa [about] using own), ih]

end Directive

theorem Selection.editsAt_addEdit_of_ne {column other : Nat} (apart : column ≠ other)
    (selection : Selection) (edit : Edit) :
    (selection.addEdit column edit).editsAt other = selection.editsAt other := by
  simp [addEdit, editsAt, Keyed.find?_insertSorted, apart]

theorem Selection.addEdit_comm {first second : Nat} (apart : first ≠ second)
    (selection : Selection) (edit other : Edit) :
    (selection.addEdit first edit).addEdit second other =
      (selection.addEdit second other).addEdit first edit := by
  have one := selection.editsAt_addEdit_of_ne apart edit
  have two := selection.editsAt_addEdit_of_ne apart.symm other
  simp only [addEdit] at one two ⊢
  rw [one, two, Keyed.insertSorted_comm apart]

namespace Job

theorem apply_comm (job : Job) {first second : Directive}
    (different : first.matter ≠ second.matter) :
    (job.apply first).apply second = (job.apply second).apply first := by
  cases first with
  | edit column edit =>
    cases second with
    | edit other more =>
      have apart : column ≠ other := fun same => different (congrArg Matter.edits same)
      exact congrArg (fun selection => { job with selection })
        (job.selection.addEdit_comm apart edit more)
    | _ => rfl
  | _ => cases second <;> first | rfl | exact absurd rfl different

/-- No token is about a matter that none of the tokens is about, however they are ordered. -/
theorem filter_matter?_eq {tokens reordered : List String} (reordering : reordered.Perm tokens)
    (keeps : ∀ token ∈ tokens, reordered.filter (Directive.matter? · = Directive.matter? token) =
      tokens.filter (Directive.matter? · = Directive.matter? token)) (matter : Option Matter) :
    reordered.filter (Directive.matter? · = matter) =
      tokens.filter (Directive.matter? · = matter) := by
  by_cases known : ∃ token ∈ tokens, Directive.matter? token = matter
  · obtain ⟨token, member, rfl⟩ := known
    exact keeps token member
  · have nowhere {others : List String} (sub : others ⊆ tokens) :
        others.filter (Directive.matter? · = matter) = [] :=
      List.filter_eq_nil_iff.mpr fun token member here =>
        known ⟨token, sub member, of_decide_eq_true here⟩
    rw [nowhere reordering.subset, nowhere (List.Subset.refl tokens)]

/-- Tokens can be put in another order as long as those about each matter keep theirs. The command
is accepted all the same, and it asks for the same job. -/
theorem ofTokens_reorder {mode : Mode} {tokens reordered : List String} {job : Job}
    (accepted : ofTokens mode tokens = .ok job) (reordering : reordered.Perm tokens)
    (keeps : ∀ token ∈ tokens, reordered.filter (Directive.matter? · = Directive.matter? token) =
      tokens.filter (Directive.matter? · = Directive.matter? token)) :
    ofTokens mode reordered = .ok job := by
  obtain ⟨directives, held, rfl⟩ := ofTokens_eq_ok_iff.mp accepted
  obtain ⟨known, rfl⟩ := Directive.held_iff.mp held
  have held : Directive.Held reordered (reordered.filterMap Directive.read?) :=
    Directive.held_iff.mpr ⟨fun token member => known token (reordering.subset member), rfl⟩
  have carried : (ofMode mode).carryOut (reordered.filterMap Directive.read?) =
      (ofMode mode).carryOut (tokens.filterMap Directive.read?) := by
    refine foldl_eq_of_filter_eq (fun job _ _ => apply_comm job) (fun matter => ?_) _
    rw [Directive.filter_filterMap_read?, Directive.filter_filterMap_read?,
      filter_matter?_eq reordering keeps]
  exact ofTokens_eq_ok_iff.mpr ⟨_, held, by rw [carried]⟩

/-- Edits of two columns, formulas, column ranges of both kinds, and a token of no form. -/
theorem ofTokens_reorder_edits :
    let tokens := ["col[1]", "tr..c0..pfx:x", "-inhead", "calc([0])", "tr..c1..add", "bogus",
      "ncol[0]", "tr..c0..sfx:y", "head[a]", "calc([1]*2)", "out..json..levels:1", "out..csv"]
    let reordered := ["out..json..levels:1", "tr..c1..add", "calc([0])", "head[a]", "tr..c0..pfx:x",
      "out..csv", "tr..c0..sfx:y", "col[1]", "calc([1]*2)", "ncol[0]", "bogus", "-inhead"]
    reordered.Perm tokens ∧
    (∀ token ∈ tokens, reordered.filter (Directive.matter? · = Directive.matter? token) =
      tokens.filter (Directive.matter? · = Directive.matter? token)) ∧
    ∃ job, ofTokens .csv tokens = .ok job ∧ ofTokens .csv reordered = .ok job := by
  intro tokens reordered
  have reordering : reordered.Perm tokens := by decide
  have keeps : ∀ token ∈ tokens,
      reordered.filter (Directive.matter? · = Directive.matter? token) =
        tokens.filter (Directive.matter? · = Directive.matter? token) := by
    decide +kernel
  have isOk : (ofTokens .csv tokens).toOption.isSome := by decide +kernel
  cases accepted : ofTokens .csv tokens with
  | error fault => simp [accepted, Except.toOption] at isOk
  | ok job =>
    exact ⟨reordering, keeps, job, rfl, ofTokens_reorder accepted reordering keeps⟩

end Job

end Tabular
