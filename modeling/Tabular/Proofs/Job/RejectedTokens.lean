import Tabular.Proofs.Job.Commands

/-!
# Rejected tokens

A command fails at the first of its tokens that holds no directive. Whether a token is rejected, and
why, is a matter of the token alone: neither the tokens in front of it nor the mode count, and no
reason has to do with a line of the input.
-/

namespace Tabular

def Cause.IsOfToken : Cause → Prop
  | expression _ | columnPlaceholder _ | malformedToken _ _ | editForm | editColumn _
  | formulaForm | conditionForm | outputForm | outputLevels _ => True
  | _ => False

theorem Cause.IsOfToken.line?_eq_none {cause : Cause} (ofToken : cause.IsOfToken) :
    cause.line? = none := by
  cases cause with
  | json | yaml => exact ofToken.elim
  | _ => rfl

/-- The result of reading a token, or a part of it: where it fails, the token is to blame. -/
def BlamesToken {α : Type} (result : Except Cause α) : Prop :=
  ∀ cause, result = .error cause → cause.IsOfToken

section

variable {α β : Type}

theorem blamesToken_ok (value : α) : BlamesToken (.ok value) := by
  intro cause failed
  cases failed

theorem blamesToken_error {cause : Cause} (ofToken : cause.IsOfToken) :
    BlamesToken (.error cause : Except Cause α) := by
  rintro _ ⟨⟩
  exact ofToken

theorem BlamesToken.bind {result : Except Cause α} {next : α → Except Cause β}
    (first : BlamesToken result) (later : ∀ value, BlamesToken (next value)) :
    BlamesToken (result >>= next) := by
  cases result with
  | error cause => exact blamesToken_error (first cause rfl)
  | ok value => exact later value

theorem BlamesToken.ite {p : Prop} [Decidable p] {first second : Except Cause α}
    (one : BlamesToken first) (other : BlamesToken second) :
    BlamesToken (if p then first else second) := by
  split
  · exact one
  · exact other

theorem BlamesToken.foldlM {step : β → α → Except Cause β}
    (each : ∀ state item, BlamesToken (step state item)) (items : List α) (state : β) :
    BlamesToken (items.foldlM step state) := by
  induction items generalizing state with
  | nil => exact blamesToken_ok state
  | cons item items ih => exact (each state item).bind ih

theorem blamesToken_expression (result : Except Expr.ReadError α) :
    BlamesToken (result.mapError Cause.expression) := by
  cases result with
  | error error => exact blamesToken_error trivial
  | ok value => exact blamesToken_ok value

end

theorem Formula.blamesToken_read (source : String) : BlamesToken (Formula.read source) := by
  unfold Formula.read
  dsimp only
  split
  · exact blamesToken_error trivial
  · exact (blamesToken_expression _).bind fun _ => blamesToken_ok _

theorem Condition.blamesToken_read (source : String) : BlamesToken (Condition.read source) :=
  (blamesToken_expression _).bind fun _ => blamesToken_ok _

namespace Directive

theorem blamesToken_readBracketed (token : String) : BlamesToken (readBracketed token) := by
  unfold readBracketed
  dsimp only
  split
  · split
    · exact blamesToken_error trivial
    · exact blamesToken_ok _
  · exact blamesToken_error trivial

theorem blamesToken_readRange (token : String) : BlamesToken (readRange token) :=
  (blamesToken_readBracketed token).bind fun _ => blamesToken_ok _

theorem blamesToken_readNames (token : String) : BlamesToken (readNames token) :=
  (blamesToken_readBracketed token).bind fun _ =>
    .ite (blamesToken_ok _) (blamesToken_ok _)

theorem blamesToken_ofRange (token : String) (make : Range → List String → Directive) :
    BlamesToken (ofRange token make) :=
  (blamesToken_readRange token).bind fun _ => blamesToken_ok _

theorem blamesToken_addOption (edit : Edit) (option : String) :
    BlamesToken (addOption edit option) := by
  unfold addOption
  dsimp only
  -- Five options with texts, the two kinds of ranges, and the last two.
  iterate 5
    split
    · exact blamesToken_ok _
  iterate 2
    refine .ite ((blamesToken_readRange option).bind fun _ => blamesToken_ok _) ?_
  exact .ite (blamesToken_ok _) (blamesToken_ok _)

theorem blamesToken_readEdit (rest : String) : BlamesToken (readEdit rest) := by
  unfold readEdit
  split
  · exact blamesToken_error trivial
  · exact blamesToken_error trivial
  · split
    · exact blamesToken_error trivial
    · exact (BlamesToken.foldlM blamesToken_addOption _ _).bind fun _ => blamesToken_ok _

theorem blamesToken_readLevels (levels : Option Nat) (options : List String) :
    BlamesToken (readLevels levels options) := by
  induction options generalizing levels with
  | nil => exact blamesToken_ok levels
  | cons option options ih =>
    unfold readLevels
    split
    · exact ih levels
    · split
      · exact ih _
      · exact blamesToken_error trivial

theorem blamesToken_readOutput (rest : String) : BlamesToken (readOutput rest) := by
  unfold readOutput
  split
  · exact blamesToken_error trivial
  · exact blamesToken_error trivial
  · exact (blamesToken_readLevels none _).bind fun _ => blamesToken_ok _

theorem blamesToken_readCondition (rest : String) : BlamesToken (readCondition rest) := by
  unfold readCondition
  split
  · exact blamesToken_error trivial
  · exact (Condition.blamesToken_read _).bind fun _ => blamesToken_ok _

theorem blamesToken_readFormula (token : String) : BlamesToken (readFormula token) := by
  unfold readFormula
  split
  · exact blamesToken_error trivial
  · exact (Formula.blamesToken_read _).bind fun _ => blamesToken_ok _

/-- Whatever a token is about, it is rejected for a reason of its own. -/
theorem blamesToken_read (token : String) : BlamesToken (read token) := by
  unfold read
  generalize Text.trim token = trimmed
  unfold readTrimmed
  dsimp only
  have names (make : List String → Directive) :
      BlamesToken (do return make (← readNames trimmed)) :=
    (blamesToken_readNames trimmed).bind fun _ => blamesToken_ok _
  iterate 2 -- lmerge, merge
    split
    · exact blamesToken_ok _
  iterate 4 -- row, col, ncol, sort
    refine .ite (blamesToken_ofRange trimmed _) ?_
  iterate 2 -- split, wrap
    split
    · exact blamesToken_ok _
  split
  · exact blamesToken_readEdit _
  refine .ite (blamesToken_ofRange trimmed _) ?_
  split
  · exact blamesToken_readOutput _
  refine .ite (names labels) ?_
  iterate 2 -- -inhead, -outhead
    refine .ite (blamesToken_ok _) ?_
  refine .ite (blamesToken_readFormula trimmed) ?_
  refine .ite (blamesToken_ok _) ?_
  refine .ite (names keys) ?_
  split
  · exact blamesToken_readCondition _
  · exact blamesToken_ok nothing

end Directive

theorem Directive.exists_held_iff {tokens : List String} :
    (∃ directives, Held tokens directives) ↔
      ∀ token ∈ tokens, ∃ directive, read token = .ok directive := by
  induction tokens with
  | nil => simp [Held]
  | cons token tokens ih =>
    rw [List.forall_mem_cons, ← ih]
    simp only [Held, List.forall₂_cons_left_iff]
    constructor
    · rintro ⟨_, directive, directives, here, held, rfl⟩
      exact ⟨⟨directive, here⟩, directives, held⟩
    · rintro ⟨⟨directive, here⟩, directives, held⟩
      exact ⟨_, directive, directives, here, held, rfl⟩

namespace Job

theorem exists_applyToken_iff {job : Job} {index : Nat} {token : String} :
    (∃ result, job.applyToken index token = .ok result) ↔
      ∃ directive, Directive.read token = .ok directive := by
  unfold applyToken
  cases Directive.read token <;> simp

theorem applyToken_error {token : String} {cause : Cause}
    (rejected : Directive.read token = .error cause) (job : Job) (index : Nat) :
    job.applyToken index token = .error (.atToken index cause) := by
  rw [applyToken, rejected]

theorem exists_of_applyTokens_error {job : Job} {index : Nat} {tokens : List String} {fault : Fault}
    (failed : job.applyTokens index tokens = .error fault) :
    ∃ before token after cause, tokens = before ++ token :: after ∧
      (∀ earlier ∈ before, ∃ directive, Directive.read earlier = .ok directive) ∧
      Directive.read token = .error cause ∧ fault = .atToken (index + before.length) cause := by
  induction tokens generalizing job index with
  | nil => cases failed
  | cons first tokens ih =>
    rw [applyTokens] at failed
    cases found : Directive.read first with
    | error cause =>
      rw [applyToken_error found] at failed
      cases failed
      exact ⟨[], first, tokens, cause, rfl, by simp, found, rfl⟩
    | ok directive =>
      have step : job.applyToken index first = .ok (job.apply directive) := by
        rw [applyToken, found]
      rw [step] at failed
      obtain ⟨before, token, after, cause, rfl, accepted, rejected, rfl⟩ := ih failed
      refine ⟨first :: before, token, after, cause, rfl, ?_, rejected, ?_⟩
      · exact List.forall_mem_cons.mpr ⟨⟨directive, found⟩, accepted⟩
      · rw [List.length_cons, Nat.add_right_comm, Nat.add_assoc]

theorem ofTokens_eq_error {mode : Mode} {tokens : List String} {fault : Fault}
    (failed : ofTokens mode tokens = .error fault) :
    (ofMode mode).applyTokens 0 tokens = .error fault := by
  unfold ofTokens at failed
  cases read : (ofMode mode).applyTokens 0 tokens with
  | error earlier =>
    rw [read] at failed
    cases failed
    rfl
  | ok job =>
    rw [read] at failed
    cases failed

theorem exists_ofTokens_iff {mode : Mode} {tokens : List String} :
    (∃ job, ofTokens mode tokens = .ok job) ↔
      ∀ token ∈ tokens, ∃ directive, Directive.read token = .ok directive := by
  constructor
  · rintro ⟨job, accepted⟩
    obtain ⟨directives, held, -⟩ := ofTokens_eq_ok_iff.mp accepted
    exact Directive.exists_held_iff.mp ⟨directives, held⟩
  · intro accepted
    obtain ⟨directives, held⟩ := Directive.exists_held_iff.mpr accepted
    exact ⟨_, ofTokens_eq_ok_iff.mpr ⟨directives, held, rfl⟩⟩

/-- A command is accepted exactly when each of its tokens is accepted alone, in any mode and at any
place. Otherwise it fails at the first token that is rejected alone: the fault has the cause for
which any other command is rejected at this token, it names the place of the token and no line of
the input. -/
theorem ofTokens_fails_at_first_rejected (mode other : Mode) (index : Nat) (tokens : List String) :
    ((∃ job, ofTokens mode tokens = .ok job) ↔
      ∀ token ∈ tokens, ∃ job, (ofMode other).applyToken index token = .ok job) ∧
    ∀ fault, ofTokens mode tokens = .error fault →
      ∃ before token after, tokens = before ++ token :: after ∧
        (∀ earlier ∈ before, ∃ job, (ofMode other).applyToken index earlier = .ok job) ∧
        (ofMode other).applyToken index token = .error (.atToken index fault.cause) ∧
        fault.token = some before.length ∧ fault.line? = none ∧
        fault.message =
          fault.cause.text ++ (" (at token " ++ Decimal.natText before.length ++ ")") := by
  simp only [exists_applyToken_iff]
  refine ⟨exists_ofTokens_iff, ?_⟩
  intro fault failed
  obtain ⟨before, token, after, cause, rfl, accepted, rejected, rfl⟩ :=
    exists_of_applyTokens_error (ofTokens_eq_error failed)
  have noLine : cause.line? = none :=
    (Directive.blamesToken_read token cause rejected).line?_eq_none
  rw [Nat.zero_add]
  refine ⟨before, token, after, rfl, accepted, applyToken_error rejected _ _, rfl, noLine, ?_⟩
  simp only [Fault.message, Fault.line?, Fault.atToken, noLine]

/-- A bracket that is missing in an option of the third token; the fourth is not reached. -/
theorem ofTokens_fails_at_first_rejected_bracket :
    let tokens := ["row[1:]", "calc([0]+1)", " tr..c0..split:/..ncol[-1", "out..json..levels:x"]
    let cause := Cause.malformedToken "ncol[-1" 7
    ofTokens .csv tokens = .error (.atToken 2 cause) ∧
    ∃ before token after, tokens = before ++ token :: after ∧
      (∀ earlier ∈ before, ∃ job, (ofMode .yaml).applyToken 9 earlier = .ok job) ∧
      (ofMode .yaml).applyToken 9 token = .error (.atToken 9 cause) ∧
      some 2 = some before.length ∧ cause.line? = none ∧
      (Fault.atToken 2 cause).message =
        cause.text ++ (" (at token " ++ Decimal.natText before.length ++ ")") := by
  intro tokens cause
  have failed : ofTokens .csv tokens = .error (.atToken 2 cause) := by rfl
  exact ⟨failed, (ofTokens_fails_at_first_rejected .csv .yaml 9 tokens).2 _ failed⟩

end Job

end Tabular
