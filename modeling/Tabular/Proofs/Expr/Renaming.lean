import Tabular.Proofs.Expr.Grammar
import Tabular.Proofs.Expr.Variables

/-!
# Renamed variables

Where the variables of an expression get other names, its phrase stays the same but for the names,
and so does its value: it is the one under the bindings of the new names, and an error about a
missing value has the new name.
-/

namespace Tabular.Expr

def rename (f : String → String) : Expr → Expr
  | number x => number x
  | text s => text s
  | bool b => bool b
  | var name => var (f name)
  | unary op operand => unary op (operand.rename f)
  | binary op left right => binary op (left.rename f) (right.rename f)
  | conditional condition yes no =>
    conditional (condition.rename f) (yes.rename f) (no.rename f)

def EvalError.rename (f : String → String) : EvalError → EvalError
  | unbound name => unbound (f name)
  | error => error

def Token.rename (f : String → String) : Token → Token
  | mark symbol => mark symbol
  | operand e => operand (e.rename f)

variable {f : String → String} {env : Bindings} {name : String}

theorem mapError_bind {α β : Type} (g : EvalError → EvalError) (result : Except EvalError α)
    (next : α → Except EvalError β) :
    (result >>= next).mapError g = result.mapError g >>= fun a => (next a).mapError g := by
  cases result <;> rfl

theorem mapError_rename_eq_self {α : Type} {result : Except EvalError α}
    (other : ∀ name, result ≠ .error (.unbound name)) :
    result.mapError (EvalError.rename f) = result := by
  cases result with
  | ok a => rfl
  | error error =>
    cases error with
    | unbound name => exact absurd rfl (other name)
    | _ => rfl

theorem mapError_truth (op : BinaryOp) (value : Scalar) :
    (truth op value).mapError (EvalError.rename f) = truth op value :=
  mapError_rename_eq_self fun _ => truth_ne_unbound op value

theorem mapError_truth_bind {op : BinaryOp} {operand : Result} {next : Bool → Result} :
    (do next (← truth op (← operand))).mapError (EvalError.rename f) = (do
      let b ← truth op (← operand.mapError (EvalError.rename f))
      (next b).mapError (EvalError.rename f)) := by
  rw [mapError_bind]
  refine bind_congr fun value => ?_
  rw [mapError_bind, mapError_truth]

theorem eval_binary {op : BinaryOp} (noAnd : op ≠ .and) (noOr : op ≠ .or) (left right : Expr) :
    (binary op left right).eval env = (do applyBinary op (← left.eval env) (← right.eval env)) := by
  rw [eval]
  · exact noAnd
  · exact noOr

theorem eval_rename (e : Expr) :
    (e.rename f).eval env = (e.eval (env ∘ f)).mapError (EvalError.rename f) := by
  induction e with
  | number | text | bool => rfl
  | var name =>
    rw [rename, eval, eval, Function.comp_apply]
    cases env (f name) <;> rfl
  | unary op operand ih =>
    rw [rename, eval, eval, ih, mapError_bind]
    refine bind_congr fun value => ?_
    exact (mapError_rename_eq_self fun _ => applyUnary_ne_unbound op value).symm
  | binary op left right before after =>
    rw [rename]
    by_cases noAnd : op = .and
    · subst noAnd
      rw [eval, eval, mapError_truth_bind, before, after]
      refine bind_congr fun value => bind_congr fun holds => ?_
      cases holds with
      | false => rfl
      | true =>
        rw [if_pos rfl, if_pos rfl, mapError_truth_bind]
        rfl
    by_cases noOr : op = .or
    · subst noOr
      rw [eval, eval, mapError_truth_bind, before, after]
      refine bind_congr fun value => bind_congr fun holds => ?_
      cases holds with
      | false =>
        rw [if_neg Bool.false_ne_true, if_neg Bool.false_ne_true, mapError_truth_bind]
        rfl
      | true => rfl
    rw [eval_binary noAnd noOr, eval_binary noAnd noOr, before, after, mapError_bind]
    refine bind_congr fun x => ?_
    rw [mapError_bind]
    refine bind_congr fun y => ?_
    exact (mapError_rename_eq_self fun _ => applyBinary_ne_unbound op x y).symm
  | conditional condition yes no asked first second =>
    rw [rename, eval, eval, asked, mapError_bind]
    refine bind_congr fun value => ?_
    split
    · exact first
    · exact second
    · rfl

theorem eq_mark_of_rename {token : Token} {symbol : String}
    (same : token.rename f = .mark symbol) : token = .mark symbol := by
  cases token with
  | mark other => exact same
  | operand e => cases same

theorem exists_of_map_rename_eq_cons {tokens after : List Token} {symbol : String}
    (same : tokens.map (Token.rename f) = .mark symbol :: after) :
    ∃ back, tokens = .mark symbol :: back ∧ back.map (Token.rename f) = after := by
  obtain ⟨token, back, rfl, mark, behind⟩ := List.map_eq_cons_iff.mp same
  obtain rfl := eq_mark_of_rename mark
  exact ⟨back, rfl, behind⟩

theorem exists_of_map_rename_eq {tokens before after : List Token} {symbol : String}
    (same : tokens.map (Token.rename f) = before ++ .mark symbol :: after) :
    ∃ front back, tokens = front ++ .mark symbol :: back ∧
      front.map (Token.rename f) = before ∧ back.map (Token.rename f) = after := by
  obtain ⟨front, others, rfl, rfl, rest⟩ := List.map_eq_append_iff.mp same
  obtain ⟨back, rfl, rfl⟩ := exists_of_map_rename_eq_cons rest
  exact ⟨front, back, rfl, rfl, rfl⟩

theorem Derives.map_rename {phrase : Phrase} {tokens : List Token} {e : Expr}
    (derives : Derives phrase tokens e) :
    Derives phrase (tokens.map (Token.rename f)) (e.rename f) := by
  induction derives with
  | plain _ ih => exact .plain ih
  | conditional _ _ _ asked first second =>
    simpa [Token.rename, rename] using Derives.conditional asked first second
  | single _ ih => exact .single ih
  | operation known _ _ before after =>
    simpa [Token.rename, rename] using Derives.operation known before after
  | base _ ih => exact .base ih
  | power _ _ before after => simpa [Token.rename, rename] using Derives.power before after
  | unsigned _ ih => exact .unsigned ih
  | negate _ ih => exact .negate ih
  | not _ ih => exact .not ih
  | operand => exact .operand
  | parenthesized _ ih => simpa [Token.rename] using Derives.parenthesized ih

/-- Phrases are told by their marks, so renamed tokens form a phrase only if the tokens do. -/
theorem Derives.of_map_rename {phrase : Phrase} {tokens : List Token} {e : Expr}
    (derives : Derives phrase (tokens.map (Token.rename f)) e) :
    ∃ tree, Derives phrase tokens tree ∧ tree.rename f = e := by
  generalize same : tokens.map (Token.rename f) = renamed at derives
  induction derives generalizing tokens with
  | plain _ ih =>
    obtain ⟨tree, derives, rfl⟩ := ih same
    exact ⟨tree, .plain derives, rfl⟩
  | conditional _ _ _ asked first second =>
    obtain ⟨front, rest, rfl, rfl, others⟩ := exists_of_map_rename_eq same
    obtain ⟨middle, back, rfl, rfl, rfl⟩ := exists_of_map_rename_eq others
    obtain ⟨condition, test, rfl⟩ := asked rfl
    obtain ⟨yes, positive, rfl⟩ := first rfl
    obtain ⟨no, negative, rfl⟩ := second rfl
    exact ⟨_, .conditional test positive negative, rfl⟩
  | single _ ih =>
    obtain ⟨tree, derives, rfl⟩ := ih same
    exact ⟨tree, .single derives, rfl⟩
  | operation known _ _ before after =>
    obtain ⟨front, back, rfl, rfl, rfl⟩ := exists_of_map_rename_eq same
    obtain ⟨left, chain, rfl⟩ := before rfl
    obtain ⟨right, operand, rfl⟩ := after rfl
    exact ⟨_, .operation known chain operand, rfl⟩
  | base _ ih =>
    obtain ⟨tree, derives, rfl⟩ := ih same
    exact ⟨tree, .base derives, rfl⟩
  | power _ _ before after =>
    obtain ⟨front, back, rfl, rfl, rfl⟩ := exists_of_map_rename_eq same
    obtain ⟨base, operand, rfl⟩ := before rfl
    obtain ⟨exponent, more, rfl⟩ := after rfl
    exact ⟨_, .power operand more, rfl⟩
  | unsigned _ ih =>
    obtain ⟨tree, derives, rfl⟩ := ih same
    exact ⟨tree, .unsigned derives, rfl⟩
  | negate _ ih =>
    obtain ⟨back, rfl, rfl⟩ := exists_of_map_rename_eq_cons same
    obtain ⟨tree, derives, rfl⟩ := ih rfl
    exact ⟨_, .negate derives, rfl⟩
  | not _ ih =>
    obtain ⟨back, rfl, rfl⟩ := exists_of_map_rename_eq_cons same
    obtain ⟨tree, derives, rfl⟩ := ih rfl
    exact ⟨_, .not derives, rfl⟩
  | operand =>
    obtain ⟨token, rfl, single⟩ := List.map_eq_singleton_iff.mp same
    cases token with
    | mark symbol => cases single
    | operand tree =>
      cases single
      exact ⟨tree, .operand, rfl⟩
  | parenthesized _ ih =>
    obtain ⟨back, rfl, rest⟩ := exists_of_map_rename_eq_cons same
    obtain ⟨inside, last, rfl, rfl, closing⟩ := exists_of_map_rename_eq rest
    obtain rfl := List.map_eq_nil_iff.mp closing
    obtain ⟨tree, derives, rfl⟩ := ih rfl
    exact ⟨_, .parenthesized derives, rfl⟩

end Tabular.Expr
