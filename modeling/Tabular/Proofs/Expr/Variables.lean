import Tabular.Expr.Eval
import Tabular.Proofs.Keyed

/-!
# The variables of an expression

The variables that an expression lists are those that occur in it, each of them once and in the
order in which they first come. Its value depends on their values alone, although not every operand
is evaluated, and no value is missed where all of them have one.
-/

namespace Tabular.Expr

variable {e : Expr} {env other : Bindings} {name : String}

theorem addVariables_eraseDups (e : Expr) (names : List String) :
    e.addVariables names.eraseDups = (names ++ e.occurrences).eraseDups := by
  induction e generalizing names with
  | number | text | bool => simp [addVariables, occurrences]
  | var name => simp [addVariables, occurrences, Keyed.eraseDups_concat]
  | unary op operand ih => exact ih names
  | binary op left right before after =>
    rw [addVariables, before, after, occurrences, List.append_assoc]
  | conditional condition yes no asked first second =>
    rw [addVariables, asked, first, second, occurrences, List.append_assoc, List.append_assoc,
      List.append_assoc]

theorem varNames_eq_eraseDups (e : Expr) : e.varNames = e.occurrences.eraseDups :=
  addVariables_eraseDups e []

theorem mem_varNames_iff : name ∈ e.varNames ↔ name ∈ e.occurrences := by
  rw [varNames_eq_eraseDups, List.mem_eraseDups]

theorem pairwise_idxOf_eraseDups (names : List String) :
    names.eraseDups.Pairwise fun first second => names.idxOf first < names.idxOf second := by
  induction names using List.reverseRecOn with
  | nil => exact .nil
  | append_singleton names name ih =>
    -- The places of earlier names stay the same, and a new name stands behind all of them.
    have place {known : String} (member : known ∈ names.eraseDups) :
        (names ++ [name]).idxOf known = names.idxOf known :=
      List.idxOf_append_of_mem (List.mem_eraseDups.mp member)
    have kept : names.eraseDups.Pairwise fun first second =>
        (names ++ [name]).idxOf first < (names ++ [name]).idxOf second := by
      refine ih.imp_of_mem fun {first second} memberFirst memberSecond before => ?_
      rwa [place memberFirst, place memberSecond]
    rw [Keyed.eraseDups_concat]
    split
    · exact kept
    · rename_i new
      refine List.pairwise_append.mpr ⟨kept, List.pairwise_singleton _ _, ?_⟩
      intro first member second single
      obtain rfl := List.mem_singleton.mp single
      have inside := List.idxOf_lt_length_iff.mpr (List.mem_eraseDups.mp member)
      rw [place member, List.idxOf_append_of_notMem new]
      omega

theorem eval_congr (same : ∀ name ∈ e.occurrences, env name = other name) :
    e.eval env = e.eval other := by
  induction e with
  | number | text | bool => rfl
  | var name =>
    have here : env name = other name := same name (List.mem_singleton_self name)
    rw [eval, eval, here]
  | unary op operand ih => rw [eval, eval, ih same]
  | binary op left right before after =>
    obtain ⟨first, second⟩ := List.forall_mem_append.mp same
    cases op <;> simp only [eval, before first, after second]
  | conditional condition yes no asked first second =>
    obtain ⟨front, last⟩ := List.forall_mem_append.mp same
    obtain ⟨test, middle⟩ := List.forall_mem_append.mp front
    simp only [eval, asked test, first middle, second last]

theorem bind_eq_error_iff {α β : Type} {result : Except EvalError α}
    {next : α → Except EvalError β} {error : EvalError} :
    result >>= next = .error error ↔
      result = .error error ∨ ∃ a, result = .ok a ∧ next a = .error error := by
  cases result <;> simp [bind, Except.bind]

theorem truth_ne_unbound (op : BinaryOp) (value : Scalar) :
    truth op value ≠ .error (.unbound name) := by
  cases value <;> simp [truth]

theorem numbers_ne_unbound (op : BinaryOp) (left right : Scalar) :
    numbers op left right ≠ .error (.unbound name) := by
  cases left <;> cases right <;> simp [numbers]

theorem add_ne_unbound (left right : Scalar) : add left right ≠ .error (.unbound name) := by
  cases left <;> cases right <;> simp [add]

theorem divide_ne_unbound (quotient : Float → Float → Float) (x y : Float) :
    divide quotient x y ≠ .error (.unbound name) := by
  unfold divide
  split <;> simp

theorem ordered_ne_unbound (accepts : Ordering → Bool) (left right : Scalar) :
    ordered accepts left right ≠ .error (.unbound name) := by
  unfold ordered
  split <;> simp

theorem occurs_ne_unbound (left right : Scalar) : occurs left right ≠ .error (.unbound name) := by
  unfold occurs
  split <;> simp

theorem applyUnary_ne_unbound (op : UnaryOp) (value : Scalar) :
    applyUnary op value ≠ .error (.unbound name) := by
  cases op <;> cases value <;> simp [applyUnary]

theorem applyBinary_ne_unbound (op : BinaryOp) (left right : Scalar) :
    applyBinary op left right ≠ .error (.unbound name) := by
  intro failed
  cases op with
  | add => exact add_ne_unbound _ _ failed
  | sub | mul | pow =>
    obtain failed | ⟨_, _, failed⟩ := bind_eq_error_iff.mp failed
    · exact numbers_ne_unbound _ _ _ failed
    · cases failed
  | div | rem =>
    obtain failed | ⟨_, _, failed⟩ := bind_eq_error_iff.mp failed
    · exact numbers_ne_unbound _ _ _ failed
    · exact divide_ne_unbound _ _ _ failed
  | eq | ne => cases failed
  | lt | le | gt | ge => exact ordered_ne_unbound _ _ _ failed
  | like | unlike =>
    obtain failed | ⟨_, _, failed⟩ := bind_eq_error_iff.mp failed
    · exact occurs_ne_unbound _ _ failed
    · cases failed
  | and | or =>
    obtain failed | ⟨_, _, failed⟩ := bind_eq_error_iff.mp failed
    · exact truth_ne_unbound _ _ failed
    · obtain failed | ⟨_, _, failed⟩ := bind_eq_error_iff.mp failed
      · exact truth_ne_unbound _ _ failed
      · cases failed

theorem missing_of_truth {op : BinaryOp} {operand : Result} {next : Bool → Result}
    (failed : (do next (← truth op (← operand))) = .error (.unbound name)) :
    operand = .error (.unbound name) ∨ ∃ b, next b = .error (.unbound name) := by
  obtain failed | ⟨value, _, failed⟩ := bind_eq_error_iff.mp failed
  · exact .inl failed
  obtain failed | ⟨b, _, failed⟩ := bind_eq_error_iff.mp failed
  · exact absurd failed (truth_ne_unbound _ _)
  · exact .inr ⟨b, failed⟩

/-- Only a variable of the expression that has no value can be missed. -/
theorem missing_of_eval (failed : e.eval env = .error (.unbound name)) :
    name ∈ e.occurrences ∧ env name = none := by
  induction e with
  | number | text | bool => cases failed
  | var known =>
    rw [eval] at failed
    split at failed
    · cases failed
    · rename_i missing
      cases failed
      exact ⟨List.mem_singleton_self _, missing⟩
  | unary op operand ih =>
    obtain failed | ⟨_, _, failed⟩ := bind_eq_error_iff.mp failed
    · exact ih failed
    · exact absurd failed (applyUnary_ne_unbound _ _)
  | binary op left right before after =>
    have inside (failed : left.eval env = .error (.unbound name) ∨
        right.eval env = .error (.unbound name)) :
        name ∈ (binary op left right).occurrences ∧ env name = none := by
      rcases failed with failed | failed
      · exact (before failed).imp_left (List.mem_append_left _)
      · exact (after failed).imp_left (List.mem_append_right _)
    apply inside
    cases op with
    | and =>
      obtain failed | ⟨holds, failed⟩ := missing_of_truth failed
      · exact .inl failed
      cases holds with
      | false => cases failed
      | true =>
        obtain failed | ⟨_, failed⟩ := missing_of_truth failed
        · exact .inr failed
        · cases failed
    | or =>
      obtain failed | ⟨holds, failed⟩ := missing_of_truth failed
      · exact .inl failed
      cases holds with
      | true => cases failed
      | false =>
        obtain failed | ⟨_, failed⟩ := missing_of_truth failed
        · exact .inr failed
        · cases failed
    | _ =>
      obtain failed | ⟨_, _, failed⟩ := bind_eq_error_iff.mp failed
      · exact .inl failed
      obtain failed | ⟨_, _, failed⟩ := bind_eq_error_iff.mp failed
      · exact .inr failed
      · exact absurd failed (applyBinary_ne_unbound _ _ _)
  | conditional condition yes no asked first second =>
    obtain failed | ⟨value, _, failed⟩ := bind_eq_error_iff.mp failed
    · exact (asked failed).imp_left fun member => by simp [occurrences, member]
    split at failed
    · exact (first failed).imp_left fun member => by simp [occurrences, member]
    · exact (second failed).imp_left fun member => by simp [occurrences, member]
    · cases failed

def missingText : List Char :=
  "no value bound".toList

theorem head?_toList_append {front : String} {c : Char} (first : front.toList.head? = some c)
    (more : String) : (front ++ more).toList.head? = some c := by
  rw [String.toList_append, List.head?_append, first]
  rfl

/-- The text of an error tells whether a value is missed. -/
theorem missingText_isPrefix_iff {error : EvalError} :
    missingText <+: error.message.toList ↔ ∃ name, error = .unbound name := by
  constructor
  · intro found
    have first : error.message.toList.head? = some 'n' := by
      obtain ⟨more, text⟩ := found
      rw [← text]
      rfl
    have other {c : Char} (here : error.message.toList.head? = some c) : c = 'n' :=
      Option.some.inj (here.symm.trans first)
    cases error with
    | unbound name => exact ⟨name, rfl⟩
    | negation kind => cases other (head?_toList_append (c := 'c') rfl kind.name)
    | inversion kind => cases other (head?_toList_append (c := 'c') rfl kind.name)
    | operand op kind =>
      have front : ("cannot apply '" ++ op.symbol).toList.head? = some 'c' :=
        head?_toList_append rfl _
      cases other (head?_toList_append (head?_toList_append front _) kind.name)
    | divisionByZero => cases other (c := 'd') rfl
    | comparison left right =>
      have front : ("cannot compare " ++ left.name).toList.head? = some 'c' :=
        head?_toList_append rfl _
      cases other (head?_toList_append (head?_toList_append front _) right.name)
    | condition kind => cases other (head?_toList_append (c := 'c') rfl kind.name)
    | pattern source error =>
      cases other (head?_toList_append (c := 'i') rfl (error.message source))
  · rintro ⟨name, rfl⟩
    have spelled : "no value bound to '".toList = missingText ++ " to '".toList := rfl
    have text : (EvalError.unbound name).message = "no value bound to '" ++ name ++ "'" := rfl
    rw [text, String.toList_append, String.toList_append, spelled, List.append_assoc,
      List.append_assoc]
    exact List.prefix_append _ _

/-- Listed are the variables that occur in an expression, each of them once and in the order in
which they first come. Bindings that agree on them give the same value or the same error. If all of
them are bound, no error says that a value is missing. -/
theorem eval_reads_varNames (e : Expr) :
    e.varNames.Nodup ∧
    (∀ name, name ∈ e.varNames ↔ name ∈ e.occurrences) ∧
    e.varNames.Pairwise (fun first second =>
      e.occurrences.idxOf first < e.occurrences.idxOf second) ∧
    (∀ env other : Bindings, (∀ name ∈ e.varNames, env name = other name) →
      e.eval env = e.eval other) ∧
    ∀ env : Bindings, (∀ name ∈ e.varNames, (env name).isSome) →
      ∀ error, e.eval env = .error error → ¬ missingText <+: error.message.toList := by
  refine ⟨?once, fun _ => mem_varNames_iff, ?order, ?agree, ?bound⟩
  case once =>
    rw [varNames_eq_eraseDups]
    exact Keyed.nodup_eraseDups _
  case order =>
    rw [varNames_eq_eraseDups]
    exact pairwise_idxOf_eraseDups _
  case agree =>
    intro env other same
    exact eval_congr fun name member => same name (mem_varNames_iff.mpr member)
  case bound =>
    intro env bound error failed text
    obtain ⟨name, rfl⟩ := missingText_isPrefix_iff.mp text
    obtain ⟨member, missing⟩ := missing_of_eval failed
    have found := bound name (mem_varNames_iff.mpr member)
    rw [missing] at found
    cases found

/-- A variable that stands twice, a branch that is not taken and an error of the other one. -/
theorem eval_reads_varNames_branches :
    let e : Expr := .conditional (.binary .or (.var "p") (.var "q"))
      (.binary .add (.var "y") (.var "p")) (.unary .negate (.var "z"))
    let env : Bindings := fun name =>
      [("p", .bool false), ("q", .bool false), ("y", .text "a"), ("z", .text "b")].lookup name
    let other : Bindings := fun name => if name = "w" then some (.bool true) else env name
    e.varNames = ["p", "q", "y", "z"] ∧
    (∀ name ∈ e.varNames, env name = other name) ∧ e.eval env = e.eval other ∧
    (∀ name ∈ e.varNames, (env name).isSome) ∧ e.eval env = .error (.negation .text) ∧
    ¬ missingText <+: (EvalError.negation .text).message.toList := by
  intro e env other
  obtain ⟨-, -, -, agree, bound⟩ := eval_reads_varNames e
  have names : e.varNames = ["p", "q", "y", "z"] := by decide
  have same : ∀ name ∈ e.varNames, env name = other name := by
    rw [names]
    intro name member
    have apart : name ≠ "w" := by
      rintro rfl
      exact absurd member (by decide)
    exact (if_neg apart).symm
  have known : ∀ name ∈ e.varNames, (env name).isSome := by
    rw [names]
    decide
  have failed : e.eval env = .error (.negation .text) := rfl
  exact ⟨names, same, agree env other same, known, failed, bound env known _ failed⟩

end Tabular.Expr
