import Tabular.Proofs.Decimal.Digits
import Tabular.Proofs.Job.TokenOrder
import Tabular.Proofs.Text.Separators

/-!
# Tokens of edits

An edit of a column is written as the name of the column and the options of the edit, in any order,
with a separator between them that any character may make up, once or repeated. The token holds this
edit, so it adds the edit to those of the column and changes nothing else.
-/

namespace Tabular

structure RangeText where
  excluded : Bool
  spec : String
  deriving DecidableEq, Repr

namespace RangeText

def range (source : RangeText) : Range :=
  if source.excluded then (Range.read source.spec).complement else Range.read source.spec

def text (source : RangeText) : String :=
  (if source.excluded then "ncol[" else "col[") ++ source.spec ++ "]"

end RangeText

inductive EditOption where
  | separator (text : String)
  | joiner (text : String)
  | wrap (text : String)
  | lead (text : String)
  | tail (text : String)
  | pieces (source : RangeText)
  | adds
  deriving DecidableEq, Repr

def delimiterNames : List String :=
  ["comma", "space", "tab", "newline", "quote", "dquote", "none", "pipe"]

def IsQuoted (text : String) : Prop :=
  ∃ quote inner, (quote = '\'' ∨ quote = '"') ∧ text.toList = quote :: (inner ++ [quote])

/-- A text has a last character, and this is no blank. -/
def EndsVisibly (text : String) : Prop :=
  ∃ c ∈ text.toList.getLast?, Text.isBlank c = false

namespace EditOption

def text : EditOption → String
  | separator text => "split:" ++ text
  | joiner text => "merge:" ++ text
  | wrap text => "wrap:" ++ text
  | lead text => "pfx:" ++ text
  | tail text => "sfx:" ++ text
  | pieces source => source.text
  | adds => "add"

def set (edit : Edit) : EditOption → Edit
  | separator text => { edit with separator := text }
  | joiner text => { edit with joiner := some text }
  | wrap text => { edit with wrap := some text }
  | lead text => { edit with lead := some text }
  | tail text => { edit with tail := some text }
  | pieces source => { edit with pieces := some source.range }
  | adds => { edit with adds := true }

/-- The fields of an edit that options set. -/
inductive Field where
  | separator
  | joiner
  | wrap
  | lead
  | tail
  | pieces
  | adds
  deriving DecidableEq, Repr

def Field.all : List Field :=
  [separator, joiner, wrap, lead, tail, pieces, adds]

def field : EditOption → Field
  | separator _ => .separator
  | joiner _ => .joiner
  | wrap _ => .wrap
  | lead _ => .lead
  | tail _ => .tail
  | pieces _ => .pieces
  | adds => .adds

/-- The text of an option stands for itself, and no blank ends it. -/
def IsPlain : EditOption → Prop
  | separator text | joiner text | wrap text =>
    text ∉ delimiterNames ∧ (text = "" ∨ EndsVisibly text)
  | lead text | tail text => ¬IsQuoted text ∧ (text = "" ∨ EndsVisibly text)
  | pieces source => ']' ∉ source.spec.toList
  | adds => True

end EditOption

namespace Edit

/-- The option that sets a field as an edit has it, if it is set at all. The range of the edit is
given by a text. -/
def option? (edit : Edit) (source : Option RangeText) : EditOption.Field → Option EditOption
  | .separator => if edit.separator = "" then none else some (.separator edit.separator)
  | .joiner => edit.joiner.map .joiner
  | .wrap => edit.wrap.map .wrap
  | .lead => edit.lead.map .lead
  | .tail => edit.tail.map .tail
  | .pieces => source.map .pieces
  | .adds => if edit.adds then some .adds else none

def options (edit : Edit) (source : Option RangeText) : List EditOption :=
  EditOption.Field.all.filterMap (edit.option? source)

end Edit

theorem delimiterOf_eq_self {text : String} (other : text ∉ delimiterNames) :
    delimiterOf text = text := by
  simp only [delimiterNames, List.mem_cons, List.not_mem_nil, or_false, not_or] at other
  unfold delimiterOf
  split <;> simp_all

namespace Directive

theorem unquote_eq_self {text : String} (bare : ¬IsQuoted text) : unquote text = text := by
  have inside (quote : Char) (known : quote = '\'' ∨ quote = '"') :
      (Text.stripLead? (String.singleton quote) text).bind
        (Text.stripTail? (String.singleton quote)) = none := by
    refine Option.eq_none_iff_forall_ne_some.mpr fun inner found => bare ?_
    obtain ⟨rest, front, back⟩ := Option.bind_eq_some_iff.mp found
    refine ⟨quote, inner.toList, known, ?_⟩
    rw [Text.stripLead?_eq_some_iff.mp front, Text.eq_append_of_stripTail? back]
    simp
  have single : (Text.stripLead? "'" text).bind (Text.stripTail? "'") = none :=
    inside '\'' (.inl rfl)
  have double : (Text.stripLead? "\"" text).bind (Text.stripTail? "\"") = none :=
    inside '"' (.inr rfl)
  simp only [unquote, single, double, Option.or_none, Option.getD_none]

theorem readRange_text (source : RangeText) (whole : ']' ∉ source.spec.toList) :
    readRange source.text = .ok (Range.read source.spec, []) := by
  obtain ⟨word, letters, spelled⟩ : ∃ word : List Char, (∀ c ∈ word, c.isAlpha = true) ∧
      source.text.toList = word ++ '[' :: (source.spec.toList ++ [']']) := by
    obtain ⟨excluded, spec⟩ := source
    cases excluded
    · exact ⟨['c', 'o', 'l'], List.all_eq_true.mp rfl, by simp [RangeText.text]⟩
    · exact ⟨['n', 'c', 'o', 'l'], List.all_eq_true.mp rfl, by simp [RangeText.text]⟩
  have name :
      source.text.toList.dropWhile Char.isAlpha = '[' :: (source.spec.toList ++ [']']) := by
    rw [spelled, List.dropWhile_append_of_pos letters]
    rfl
  have inside : ∀ c ∈ source.spec.toList, (c != ']') = true := by
    rintro c member
    refine bne_iff_ne.mpr ?_
    rintro rfl
    exact whole member
  have body : (source.spec.toList ++ [']']).takeWhile (· != ']') = source.spec.toList := by
    rw [List.takeWhile_append_of_pos inside]
    exact List.append_nil _
  have behind : (source.spec.toList ++ [']']).dropWhile (· != ']') = [']'] := by
    rw [List.dropWhile_append_of_pos inside]
    rfl
  have read : readBracketed source.text = .ok ⟨source.spec, []⟩ := by
    simp only [readBracketed, name, body, behind, String.ofList_toList]
  rw [readRange, read]
  rfl

theorem addOption_text {option : EditOption} (plain : option.IsPlain) (edit : Edit) :
    addOption edit option.text = .ok (option.set edit) := by
  cases option with
  | separator text | joiner text | wrap text =>
    simp [addOption, EditOption.text, Text.stripLead?, Text.dropLead?, EditOption.set,
      delimiterOf_eq_self plain.1]
  | lead text | tail text =>
    simp [addOption, EditOption.text, Text.stripLead?, Text.dropLead?, EditOption.set,
      unquote_eq_self plain.1]
  | pieces source =>
    have read := readRange_text source plain
    obtain ⟨excluded, spec⟩ := source
    cases excluded
    · simp [addOption, EditOption.text, EditOption.set, RangeText.text, RangeText.range,
        Text.stripLead?, Text.startsWith, Text.dropLead?] at read ⊢
      rw [read]
      rfl
    · simp [addOption, EditOption.text, EditOption.set, RangeText.text, RangeText.range,
        Text.stripLead?, Text.startsWith, Text.dropLead?] at read ⊢
      rw [read]
      rfl
  | adds => rfl

theorem foldlM_addOption {options : List EditOption} (plain : ∀ option ∈ options, option.IsPlain)
    (edit : Edit) :
    (options.map EditOption.text).foldlM addOption edit =
      .ok (options.foldl EditOption.set edit) := by
  induction options generalizing edit with
  | nil => rfl
  | cons option options ih =>
    obtain ⟨here, later⟩ := List.forall_mem_cons.mp plain
    rw [List.map_cons, List.foldlM_cons, addOption_text here, List.foldl_cons]
    exact ih later _

end Directive

namespace EditOption

theorem set_comm {first second : EditOption} (different : first.field ≠ second.field)
    (edit : Edit) : (second.set (first.set edit)) = first.set (second.set edit) := by
  cases first <;> cases second <;> first | rfl | exact absurd rfl different

end EditOption

namespace Edit

variable {edit : Edit} {source : Option RangeText}

theorem field_of_option? {field : EditOption.Field} {option : EditOption}
    (found : edit.option? source field = some option) : option.field = field := by
  cases field with
  | separator =>
    obtain ⟨-, ⟨⟩⟩ := Option.ite_none_left_eq_some.mp found
    rfl
  | adds =>
    obtain ⟨-, ⟨⟩⟩ := Option.ite_none_right_eq_some.mp found
    rfl
  | joiner | wrap | lead | tail | pieces =>
    obtain ⟨value, -, rfl⟩ := Option.map_eq_some_iff.mp found
    rfl

/-- No field is set twice. -/
theorem eq_of_field_eq {first second : EditOption} (one : first ∈ edit.options source)
    (two : second ∈ edit.options source) (same : first.field = second.field) : first = second := by
  obtain ⟨field, -, found⟩ := List.mem_filterMap.mp one
  obtain ⟨other, -, known⟩ := List.mem_filterMap.mp two
  rw [← field_of_option? found, same, field_of_option? known, known] at found
  exact (Option.some.inj found).symm

theorem foldl_set_toList {α : Type} {make : α → EditOption} {put : Option α → Edit}
    (sets : ∀ a, (make a).set (put none) = put (some a)) (value : Option α) :
    (value.map make).toList.foldl EditOption.set (put none) = put value := by
  cases value with
  | none => rfl
  | some a => exact sets a

theorem foldl_set_options (given : edit.pieces = source.map RangeText.range) :
    (edit.options source).foldl EditOption.set {} = edit := by
  obtain ⟨separator, joiner, pieces, lead, tail, wrap, adds⟩ := edit
  obtain rfl : pieces = source.map RangeText.range := given
  have cut : (if separator = "" then none else some (EditOption.separator separator)).toList.foldl
      EditOption.set {} = ⟨separator, none, none, none, none, none, false⟩ := by
    split
    · rename_i empty
      rw [empty]
      rfl
    · rfl
  have joined := @foldl_set_toList String .joiner
    (⟨separator, ·, none, none, none, none, false⟩) (fun _ => rfl) joiner
  have wrapped := @foldl_set_toList String .wrap
    (⟨separator, joiner, none, none, none, ·, false⟩) (fun _ => rfl) wrap
  have led := @foldl_set_toList String .lead
    (⟨separator, joiner, none, ·, none, wrap, false⟩) (fun _ => rfl) lead
  have tailed := @foldl_set_toList String .tail
    (⟨separator, joiner, none, lead, ·, wrap, false⟩) (fun _ => rfl) tail
  have kept := @foldl_set_toList RangeText .pieces
    (⟨separator, joiner, Option.map RangeText.range ·, lead, tail, wrap, false⟩) (fun _ => rfl)
    source
  rw [Option.map_none] at kept
  simp only [options, EditOption.Field.all, List.filterMap_eq_flatMap_toList, List.flatMap_cons,
    List.flatMap_nil, List.foldl_append, option?, cut, joined, wrapped, led, tailed, kept]
  cases adds <;> rfl

/-- The order of the options makes no difference. -/
theorem foldl_set_eq {options : List EditOption} (given : edit.pieces = source.map RangeText.range)
    (order : options.Perm (edit.options source)) : options.foldl EditOption.set {} = edit := by
  have comm : ∀ first ∈ options, ∀ second ∈ options, ∀ state : Edit,
      second.set (first.set state) = first.set (second.set state) := by
    intro first one second two state
    by_cases same : first.field = second.field
    · rw [eq_of_field_eq (order.subset one) (order.subset two) same]
    · exact EditOption.set_comm same state
  rw [← foldl_set_options given]
  exact order.foldl_eq' comm {}

end Edit

def columnText (column : Nat) : String :=
  "c" ++ Decimal.natText column

def separatorText (separator : Char) (repeats : Nat) : String :=
  String.ofList (List.replicate (repeats + 1) separator)

/-- The token of an edit with some options. -/
def editToken (between : String) (column : Nat) (options : List EditOption) : String :=
  "tr" ++ between ++ columnText column ++ between ++
    between.intercalate (options.map EditOption.text)

namespace Directive

theorem toList_columnText (column : Nat) :
    (columnText column).toList = 'c' :: Decimal.natChars column := by
  simp [columnText, Decimal.natText]

theorem readColumn?_columnText {column : Nat} (small : column < Decimal.indexBound) :
    readColumn? (columnText column) = some column := by
  simp only [readColumn?, toList_columnText, Decimal.readNat?_natChars]
  simp [small]

theorem parts?_separated {separator c : Char} {cs : List Char} {first : String}
    {more : List String} (begins : first.toList = c :: cs)
    (clear : ∀ part ∈ first :: more, separator ∉ part.toList) (repeats : Nat) :
    parts? (separatorText separator repeats ++
      (separatorText separator repeats).intercalate (first :: more)) = some (first :: more) := by
  have between : (separatorText separator repeats).toList =
      separator :: List.replicate repeats separator := by
    rw [separatorText, String.toList_ofList, List.replicate_succ]
  have split := Text.splitAt_intercalate (List.cons_ne_nil first more) between clear
  -- The first part begins with another character, so the separator ends before it.
  obtain ⟨behind, inner⟩ : ∃ behind,
      ((separatorText separator repeats).intercalate (first :: more)).toList = c :: behind := by
    obtain ⟨rest, whole⟩ := Text.prefix_intercalate_cons (separatorText separator repeats).toList
      first.toList (more.map String.toList)
    rw [String.toList_intercalate, List.map_cons, ← whole, begins]
    exact ⟨_, rfl⟩
  have other : (c == separator) = false := by
    refine beq_eq_false_iff_ne.mpr ?_
    rintro rfl
    exact clear first List.mem_cons_self (begins ▸ List.mem_cons_self)
  have same : ∀ x ∈ List.replicate repeats separator, (x == separator) = true := by
    intro x member
    rw [List.eq_of_mem_replicate member, beq_self_eq_true]
  have taken : (List.replicate repeats separator ++ c :: behind).takeWhile (· == separator) =
      List.replicate repeats separator := by
    rw [List.takeWhile_append_of_pos same, List.takeWhile_cons_of_neg (by simp [other]),
      List.append_nil]
  have left : (List.replicate repeats separator ++ c :: behind).dropWhile (· == separator) =
      c :: behind := by
    rw [List.dropWhile_append_of_pos same, List.dropWhile_cons_of_neg (by simp [other])]
  have chars : (separatorText separator repeats ++
      (separatorText separator repeats).intercalate (first :: more)).toList =
        separator :: (List.replicate repeats separator ++ c :: behind) := by
    rw [String.toList_append, between, inner, List.cons_append]
  simp only [parts?, chars, taken, left]
  rw [← inner, ← between, String.ofList_toList, String.ofList_toList, split]

theorem readTrimmed_tr (rest : String) : readTrimmed ("tr" ++ rest) = readEdit rest := by
  simp [readTrimmed, Text.stripLead?, Text.startsWith, Text.dropLead?]

end Directive

theorem EndsVisibly.append_left {text : String} (ends : EndsVisibly text) (front : String) :
    EndsVisibly (front ++ text) := by
  obtain ⟨c, last, visible⟩ := ends
  refine ⟨c, ?_, visible⟩
  rw [String.toList_append, List.getLast?_append, last]
  rfl

theorem endsVisibly_intercalate (between : String) {texts : List String} (filled : texts ≠ [])
    (ends : ∀ text ∈ texts, EndsVisibly text) : EndsVisibly (between.intercalate texts) := by
  induction texts with
  | nil => exact absurd rfl filled
  | cons text texts ih =>
    obtain ⟨here, later⟩ := List.forall_mem_cons.mp ends
    cases texts with
    | nil => rwa [String.intercalate_singleton]
    | cons next texts =>
      rw [String.intercalate_cons_cons]
      exact (ih (List.cons_ne_nil _ _) later).append_left _

theorem EditOption.IsPlain.endsVisibly {option : EditOption} (plain : option.IsPlain) :
    EndsVisibly option.text := by
  have named {name text : String} (shown : EndsVisibly name) (ends : text = "" ∨ EndsVisibly text) :
      EndsVisibly (name ++ text) := by
    rcases ends with rfl | ends
    · rwa [String.append_empty]
    · exact ends.append_left name
  have colon (letters : String) : EndsVisibly (letters ++ ":") :=
    EndsVisibly.append_left ⟨':', rfl, rfl⟩ letters
  cases option with
  | separator => exact named (colon "split") plain.2
  | joiner => exact named (colon "merge") plain.2
  | wrap => exact named (colon "wrap") plain.2
  | lead => exact named (colon "pfx") plain.2
  | tail => exact named (colon "sfx") plain.2
  | pieces source => exact EndsVisibly.append_left ⟨']', rfl, rfl⟩ _
  | adds => exact ⟨'d', rfl, rfl⟩

theorem endsVisibly_columnText (column : Nat) : EndsVisibly (columnText column) := by
  have filled := Decimal.natChars_ne_nil column
  have digit := Decimal.isDigit_of_mem_natChars (List.getLast_mem filled)
  refine EndsVisibly.append_left ⟨_, ?_, Text.isBlank_of_isDigit digit⟩ "c"
  rw [Decimal.natText, String.toList_ofList, List.getLast?_eq_some_getLast filled]
  rfl

theorem trim_tr {rest : String} (ends : EndsVisibly rest) :
    Text.trim ("tr" ++ rest) = "tr" ++ rest := by
  obtain ⟨c, last, visible⟩ := ends.append_left "tr"
  rw [Text.trim, Text.trimChars_eq_self, String.ofList_toList]
  · rw [String.toList_append]
    rintro _ ⟨⟩
    rfl
  · rw [last]
    rintro _ ⟨⟩
    exact visible

/-- Blanks around the token do not count. Without options the token ends with its separator, which
blanks may make up. -/
theorem trim_editToken {options : List EditOption} (plain : ∀ option ∈ options, option.IsPlain)
    (separator : Char) (repeats column : Nat) :
    ∃ more, (more = options.map EditOption.text ∨ options = [] ∧ more = [""]) ∧
      Text.trim (editToken (separatorText separator repeats) column options) =
        "tr" ++ (separatorText separator repeats ++
          (separatorText separator repeats).intercalate (columnText column :: more)) := by
  have made : ∀ c ∈ (separatorText separator repeats).toList, c = separator := by
    intro c member
    rw [separatorText, String.toList_ofList] at member
    exact List.eq_of_mem_replicate member
  have last : separator ∈ (separatorText separator repeats).toList.getLast? := by
    rw [separatorText, String.toList_ofList, List.replicate_succ', List.getLast?_concat]
    rfl
  generalize separatorText separator repeats = between at made last ⊢
  cases options with
  | nil =>
    have whole :
        editToken between column [] = "tr" ++ (between ++ columnText column) ++ between := by
      rw [editToken, List.map_nil, String.intercalate_nil, String.append_empty,
        @String.append_assoc "tr"]
    cases blank : Text.isBlank separator with
    | true =>
      refine ⟨[], .inl rfl, ?_⟩
      rw [whole, Text.trim_append fun c member => made c member ▸ blank,
        trim_tr ((endsVisibly_columnText column).append_left between), String.intercalate_singleton]
    | false =>
      refine ⟨[""], .inr ⟨rfl, rfl⟩, ?_⟩
      have ends : EndsVisibly between := ⟨separator, last, blank⟩
      rw [whole, String.append_assoc, trim_tr (ends.append_left _), String.intercalate_cons_cons,
        String.intercalate_singleton, String.append_empty, String.append_assoc]
  | cons option options =>
    refine ⟨_, .inl rfl, ?_⟩
    have ends : EndsVisibly (between.intercalate ((option :: options).map EditOption.text)) := by
      refine endsVisibly_intercalate between (List.cons_ne_nil _ _) fun text member => ?_
      obtain ⟨here, known, rfl⟩ := List.mem_map.mp member
      exact (plain here known).endsVisibly
    rw [editToken, String.append_assoc, String.append_assoc, String.append_assoc,
      trim_tr (((ends.append_left between).append_left (columnText column)).append_left between),
      List.map_cons, String.intercalate_cons_cons, String.append_assoc]

theorem Selection.editsAt_addEdit_self (selection : Selection) (column : Nat) (edit : Edit) :
    (selection.addEdit column edit).editsAt column = selection.editsAt column ++ [edit] := by
  simp [addEdit, editsAt, Keyed.find?_insertSorted]

section

variable {column : Nat} {edit : Edit} {source : Option RangeText} {options : List EditOption}
  {separator : Char}

theorem Directive.read_editToken (repeats : Nat) (small : column < Decimal.indexBound)
    (given : edit.pieces = source.map RangeText.range)
    (order : options.Perm (edit.options source)) (plain : ∀ option ∈ options, option.IsPlain)
    (apart : separator ∉ (columnText column).toList)
    (clear : ∀ option ∈ options, separator ∉ option.text.toList) :
    read (editToken (separatorText separator repeats) column options) =
      .ok (.edit column edit) := by
  obtain ⟨more, parts, trimmed⟩ := trim_editToken plain separator repeats column
  have inside : ∀ part ∈ columnText column :: more, separator ∉ part.toList := by
    refine List.forall_mem_cons.mpr ⟨apart, ?_⟩
    obtain rfl | ⟨-, rfl⟩ := parts
    · simpa using clear
    · simp
  have split := parts?_separated (toList_columnText column) inside repeats
  have carried : more.foldlM addOption {} = .ok edit := by
    have set := Edit.foldl_set_eq given order
    obtain rfl | ⟨rfl, rfl⟩ := parts
    · rw [foldlM_addOption plain, set]
    · rw [← set]
      rfl
  rw [read, trimmed, readTrimmed_tr, readEdit, split]
  simp only [readColumn?_columnText small, carried]
  rfl

namespace Job

/-- The token of an edit adds this edit to those of its column, with the options in any order and
any separator that is in none of them. It changes nothing else. -/
theorem applyToken_editToken (job : Job) (index repeats : Nat) (small : column < Decimal.indexBound)
    (given : edit.pieces = source.map RangeText.range)
    (order : options.Perm (edit.options source)) (plain : ∀ option ∈ options, option.IsPlain)
    (apart : separator ∉ (columnText column).toList)
    (clear : ∀ option ∈ options, separator ∉ option.text.toList) :
    let selection := job.selection.addEdit column edit
    job.applyToken index (editToken (separatorText separator repeats) column options) =
        .ok { job with selection } ∧
      selection.columns = job.selection.columns ∧
      selection.editsAt column = job.selection.editsAt column ++ [edit] ∧
      ∀ other, other ≠ column → selection.editsAt other = job.selection.editsAt other := by
  have held := Directive.read_editToken repeats small given order plain apart clear
  refine ⟨?_, rfl, job.selection.editsAt_addEdit_self column edit, ?_⟩
  · rw [applyToken, held]
    rfl
  · intro other differs
    exact job.selection.editsAt_addEdit_of_ne differs.symm edit

/-- Blanks make up the separator, and a quote is not quoted. -/
theorem applyToken_editToken_blanks :
    let earlier : Edit := { lead := some "x" }
    let other : Edit := { wrap := some "|" }
    let job := { ofMode .csv with selection := ⟨.all, [(2, [other]), (5, [earlier])]⟩ }
    let source : RangeText := ⟨true, "-1"⟩
    let edit : Edit :=
      { separator := "/", pieces := some source.range, lead := some "'", adds := true }
    let options : List EditOption := [.lead "'", .pieces source, .adds, .separator "/"]
    options.Perm (edit.options (some source)) ∧
    editToken (separatorText ' ' 1) 5 options = "tr  c5  pfx:'  ncol[-1]  add  split:/" ∧
    job.applyToken 0 (editToken (separatorText ' ' 1) 5 options) =
      .ok { job with selection := ⟨.all, [(2, [other]), (5, [earlier, edit])]⟩ } := by
  intro earlier other job source edit options
  have order : options.Perm (edit.options (some source)) := by decide
  have plain : ∀ option ∈ options, option.IsPlain := by
    simp [options, source, EditOption.IsPlain, IsQuoted, EndsVisibly, delimiterNames, Text.isBlank]
  refine ⟨order, by decide, ?_⟩
  exact (job.applyToken_editToken 0 1 (by decide) rfl order plain (by decide) (by decide)).1

end Job

end

end Tabular
