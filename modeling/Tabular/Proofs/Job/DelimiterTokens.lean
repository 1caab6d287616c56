import Mathlib.Data.List.DropRight
import Tabular.Proofs.Job.EditTokens

/-!
# Tokens of delimiters

Four tokens give a delimiter behind their name. A text that names no delimiter is taken as it is
written, with the blanks at its start. The blanks at its end are blanks around the token, and these
do not count.
-/

namespace Tabular

namespace Text

theorem trimRightChars_of_visible {cs : List Char} (ends : ∃ c ∈ cs.getLast?, isBlank c = false) :
    trimRightChars cs = cs := by
  obtain ⟨c, last, visible⟩ := ends
  exact trimRightChars_eq_self fun other same => Option.mem_unique last same ▸ visible

theorem trimRightChars_append {front : List Char}
    (ends : ∃ c ∈ front.getLast?, isBlank c = false) (cs : List Char) :
    trimRightChars (front ++ cs) = front ++ trimRightChars cs := by
  induction cs using List.reverseRecOn with
  | nil => rw [List.append_nil, trimRightChars_of_visible ends, trimRightChars, List.reverse_nil,
      List.dropWhile_nil, List.reverse_nil, List.append_nil]
  | append_singleton cs c ih =>
    change (front ++ (cs ++ [c])).rdropWhile isBlank = front ++ (cs ++ [c]).rdropWhile isBlank
    rw [← List.append_assoc, List.rdropWhile_concat, List.rdropWhile_concat]
    split
    · exact ih
    · exact List.append_assoc _ _ _

theorem trimRight_trimRight (text : String) : trimRight (trimRight text) = trimRight text := by
  rw [trimRight, trimRight, String.toList_ofList]
  exact congrArg String.ofList (List.rdropWhile_idempotent isBlank text.toList)

theorem trimRight_append {front : String} (ends : EndsVisibly front) (text : String) :
    trimRight (front ++ text) = front ++ trimRight text := by
  rw [trimRight, String.toList_append, trimRightChars_append ends, String.ofList_append,
    String.ofList_toList, trimRight]

theorem trim_eq_trimRight {text : String} (starts : ∀ c ∈ text.toList.head?, isBlank c = false) :
    trim text = trimRight text := by
  rw [trim, trimChars, trimLeftChars_eq_self starts, trimRight]

theorem trimRight_eq_self_iff {text : String} :
    trimRight text = text ↔ text = "" ∨ EndsVisibly text := by
  rw [← String.toList_inj, trimRight, String.toList_ofList]
  constructor
  · intro same
    by_cases filled : text.toList = []
    · exact .inl (String.toList_eq_nil_iff.mp filled)
    · have visible := List.rdropWhile_eq_self_iff.mp same filled
      exact .inr ⟨_, List.getLast?_eq_some_getLast filled, Bool.not_eq_true _ ▸ visible⟩
  · rintro (rfl | ends)
    · rfl
    · exact trimRightChars_of_visible ends

end Text

/-- No name is what is left of the delimiter that it stands for. -/
theorem trimRight_delimiterOf_ne :
    ∀ name ∈ delimiterNames, Text.trimRight (delimiterOf name) ≠ name := by
  decide

theorem delimiterOf_trimRight_eq_iff {text : String} (other : text ∉ delimiterNames) :
    delimiterOf (Text.trimRight text) = text ↔ text = "" ∨ EndsVisibly text := by
  rw [← Text.trimRight_eq_self_iff]
  constructor
  · intro same
    by_cases named : Text.trimRight text ∈ delimiterNames
    · have left := trimRight_delimiterOf_ne _ named
      rw [same] at left
      exact absurd rfl left
    · rwa [delimiterOf_eq_self named] at same
  · intro kept
    rw [kept, delimiterOf_eq_self other]

/-- What the delimiter of a token is for. -/
inductive DelimiterUse where
  | joinLines
  | join
  | split
  | wrap
  deriving DecidableEq, Repr

namespace DelimiterUse

/-- The name of the token, up to its delimiter. -/
def lead : DelimiterUse → String
  | joinLines => "lmerge:"
  | join => "merge:"
  | split => "split:"
  | wrap => "wrap:"

def directive (delimiter : String) : DelimiterUse → Directive
  | joinLines => .joinLines delimiter
  | join => .join (.ofDelimiter delimiter)
  | split => .split (.ofDelimiter delimiter)
  | wrap => .wrap delimiter

/-- The job with the text itself as its delimiter. -/
def put (job : Job) (text : String) : DelimiterUse → Job
  | joinLines => { job with lineJoiner := some text }
  | join => { job with joining := .literal text }
  | split => { job with splitting := .literal text }
  | wrap => { job with wrap := some text }

theorem endsVisibly_lead (use : DelimiterUse) : EndsVisibly use.lead := by
  refine ⟨':', ?_, rfl⟩
  cases use <;> rfl

theorem readTrimmed_lead_append (use : DelimiterUse) (text : String) :
    Directive.readTrimmed (use.lead ++ text) = .ok (use.directive (delimiterOf text)) := by
  cases use <;>
    simp [lead, directive, Directive.readTrimmed, Text.stripLead?, Text.startsWith, Text.dropLead?]

/-- The blanks at the end of the token do not count, and the rest of the delimiter may be a name. -/
theorem read_lead_append (use : DelimiterUse) (text : String) :
    Directive.read (use.lead ++ text) =
      .ok (use.directive (delimiterOf (Text.trimRight text))) := by
  have starts : ∀ c ∈ (use.lead ++ text).toList.head?, Text.isBlank c = false := by
    rw [String.toList_append]
    cases use <;> rintro _ ⟨⟩ <;> rfl
  rw [Directive.read, Text.trim_eq_trimRight starts, Text.trimRight_append use.endsVisibly_lead,
    readTrimmed_lead_append]

end DelimiterUse

theorem Joining.ofDelimiter_eq_literal_iff {delimiter text : String} (noCsv : text ≠ "csv") :
    ofDelimiter delimiter = .literal text ↔ delimiter = text := by
  unfold ofDelimiter
  split
  · simp [noCsv.symm]
  · simp

theorem Splitting.ofDelimiter_eq_literal_iff {delimiter text : String} (noCsv : text ≠ "csv")
    (noBlanks : text ≠ "space+") : ofDelimiter delimiter = .literal text ↔ delimiter = text := by
  unfold ofDelimiter
  split
  · simp [noBlanks.symm]
  · simp [noCsv.symm]
  · simp

namespace Job

theorem apply_directive_eq_put_iff (job : Job) (use : DelimiterUse) {delimiter text : String}
    (noCsv : text ≠ "csv") (noBlanks : text ≠ "space+") :
    job.apply (use.directive delimiter) = use.put job text ↔ delimiter = text := by
  cases use with
  | joinLines | wrap => simp [apply, DelimiterUse.directive, DelimiterUse.put]
  | join =>
    simp [apply, DelimiterUse.directive, DelimiterUse.put, Joining.ofDelimiter_eq_literal_iff noCsv]
  | split =>
    simp [apply, DelimiterUse.directive, DelimiterUse.put,
      Splitting.ofDelimiter_eq_literal_iff noCsv noBlanks]

/-- A text that names no delimiter and no way of splitting or joining is set as it is written,
whatever it looks like, exactly if no blank ends it. The blanks at its end make no difference. -/
theorem applyToken_takes_text_iff (job : Job) (index : Nat) (use : DelimiterUse) {text : String}
    (other : text ∉ delimiterNames) (noCsv : text ≠ "csv") (noBlanks : text ≠ "space+") :
    (job.applyToken index (use.lead ++ text) = .ok (use.put job text) ↔
      text = "" ∨ EndsVisibly text) ∧
    job.applyToken index (use.lead ++ text) =
      job.applyToken index (use.lead ++ Text.trimRight text) := by
  have carried (given : String) : job.applyToken index (use.lead ++ given) =
      .ok (job.apply (use.directive (delimiterOf (Text.trimRight given)))) := by
    rw [applyToken, use.read_lead_append]
  constructor
  · rw [carried, Except.ok.injEq, job.apply_directive_eq_put_iff use noCsv noBlanks]
    exact delimiterOf_trimRight_eq_iff other
  · rw [carried, carried, Text.trimRight_trimRight]

/-- A tab and a blank are kept in front of a text that looks like another token. -/
theorem applyToken_takes_text_iff_tab :
    let job := { ofMode .csv with joining := .literal "-", wrap := some "'" }
    let text := "\t tr..c0..add"
    text ∉ delimiterNames ∧ text ≠ "csv" ∧ text ≠ "space+" ∧ EndsVisibly text ∧
    job.applyToken 3 ("merge:" ++ text) = .ok { job with joining := .literal text } ∧
    job.applyToken 3 ("lmerge:" ++ text) = .ok { job with lineJoiner := some text } := by
  intro job text
  have other : text ∉ delimiterNames := by decide
  have noCsv : text ≠ "csv" := by decide
  have noBlanks : text ≠ "space+" := by decide
  have ends : EndsVisibly text := ⟨'d', by decide, rfl⟩
  exact ⟨other, noCsv, noBlanks, ends,
    (job.applyToken_takes_text_iff 3 .join other noCsv noBlanks).1.mpr (.inr ends),
    (job.applyToken_takes_text_iff 3 .joinLines other noCsv noBlanks).1.mpr (.inr ends)⟩

/-- The blank at the end of the delimiter is lost. -/
theorem applyToken_drops_blank :
    ", " ∉ delimiterNames ∧ ", " ≠ "csv" ∧ ", " ≠ "space+" ∧
    (ofMode .csv).applyToken 0 ("merge:" ++ ", ") =
      .ok { ofMode .csv with joining := .literal "," } ∧
    (ofMode .csv).applyToken 0 ("merge:" ++ ", ") ≠
      .ok { ofMode .csv with joining := .literal ", " } := by
  have kept : (ofMode .csv).applyToken 0 ("merge:" ++ ", ") =
      .ok { ofMode .csv with joining := .literal "," } := by
    rfl
  refine ⟨by decide, by decide, by decide, kept, ?_⟩
  rw [kept, ne_eq, Except.ok.injEq]
  exact fun same => absurd (congrArg joining same) (by decide)

end Job

end Tabular
