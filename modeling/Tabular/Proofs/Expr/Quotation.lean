import Tabular.Proofs.Expr.Tokens

/-!
# Quoted texts

A source is cut at its quotes: a quote opens a quoted stretch, which the next quote of the same kind
closes, and outside these stand bare stretches. Nothing else in an expression holds a quote, so the
texts of the tree that is read are the quoted stretches, in their order.
-/

namespace Tabular.Expr

def texts : Expr → List String
  | number _ | bool _ | var _ => []
  | text s => [s]
  | unary _ operand => operand.texts
  | binary _ left right => left.texts ++ right.texts
  | conditional condition yes no => condition.texts ++ yes.texts ++ no.texts

def isQuote (c : Char) : Bool :=
  c == '\'' || c == '"'

inductive Stretch where
  | bare (cs : List Char)
  | quoted (cs : List Char)
  deriving DecidableEq, Repr

namespace Stretch

def of (quote : Option Char) (cs : List Char) : Stretch :=
  if quote.isSome then quoted cs else bare cs

def chars : Stretch → List Char
  | bare cs | quoted cs => cs

def map (change : List Char → List Char) : Stretch → Stretch
  | bare cs => bare (change cs)
  | quoted cs => quoted (change cs)

def bare? : Stretch → Option String
  | bare cs => some (String.ofList cs)
  | quoted _ => none

def quoted? : Stretch → Option String
  | bare _ => none
  | quoted cs => some (String.ofList cs)

theorem chars_of (quote : Option Char) (cs : List Char) : (of quote cs).chars = cs := by
  cases quote <;> rfl

theorem map_of (change : List Char → List Char) (quote : Option Char) (cs : List Char) :
    (of quote cs).map change = of quote (change cs) := by
  cases quote <;> rfl

end Stretch

def endsStretch (quote : Option Char) (c : Char) : Bool :=
  match quote with
  | none => isQuote c
  | some quote => c == quote

/-- The quote that opens the stretch behind a character that has ended one. -/
def quoteAfter (quote : Option Char) (c : Char) : Option Char :=
  if quote.isSome then none else some c

/-- The stretches of a text, of the first of which some characters are taken already. What stands
behind a quote that is never closed is bare. -/
def stretchesFrom (quote : Option Char) (taken : List Char) : List Char → List Stretch
  | [] => [.bare taken]
  | c :: cs =>
    if endsStretch quote c then .of quote taken :: stretchesFrom (quoteAfter quote c) [] cs
    else stretchesFrom quote (taken ++ [c]) cs

def stretches (source : String) : List Stretch :=
  stretchesFrom none [] source.toList

/-- What stands between quotes, from left to right. -/
def quotedTexts (source : String) : List String :=
  (stretches source).filterMap Stretch.quoted?

def bareTexts (source : String) : List String :=
  (stretches source).filterMap Stretch.bare?

variable {quote : Option Char} {taken cs rest : List Char}

theorem stretchesFrom_append (inside : ∀ c ∈ cs, endsStretch quote c = false) :
    stretchesFrom quote taken (cs ++ rest) = stretchesFrom quote (taken ++ cs) rest := by
  induction cs generalizing taken with
  | nil => simp
  | cons c cs ih =>
    have goesOn : endsStretch quote c = false := inside c List.mem_cons_self
    rw [List.cons_append, stretchesFrom, if_neg (by simp [goesOn]),
      ih fun d member => inside d (List.mem_cons_of_mem _ member), List.append_assoc,
      List.singleton_append]

theorem stretchesFrom_eq_singleton (inside : ∀ c ∈ cs, endsStretch quote c = false) :
    stretchesFrom quote taken cs = [.bare (taken ++ cs)] := by
  have whole : stretchesFrom quote taken (cs ++ []) = [.bare (taken ++ cs)] :=
    stretchesFrom_append inside
  rwa [List.append_nil] at whole

theorem stretchesFrom_cons_of_ends {c : Char} (last : endsStretch quote c) :
    stretchesFrom quote taken (c :: rest) =
      .of quote taken :: stretchesFrom (quoteAfter quote c) [] rest :=
  if_pos last

def quotedIn (cs : List Char) : List String :=
  (stretchesFrom none [] cs).filterMap Stretch.quoted?

theorem filterMap_quoted?_stretchesFrom (taken cs : List Char) :
    (stretchesFrom none taken cs).filterMap Stretch.quoted? = quotedIn cs := by
  -- What is taken already makes the first stretch longer, and that is a bare one.
  induction cs generalizing taken with
  | nil => rfl
  | cons c cs ih =>
    rw [quotedIn, stretchesFrom, stretchesFrom]
    split
    · rfl
    · rw [ih, ih]

theorem quotedIn_append (bare : ∀ c ∈ cs, isQuote c = false) (rest : List Char) :
    quotedIn (cs ++ rest) = quotedIn rest := by
  have goesOn : ∀ c ∈ cs, endsStretch none c = false := bare
  rw [quotedIn, stretchesFrom_append goesOn, filterMap_quoted?_stretchesFrom]

theorem quotedIn_quoted {c : Char} (isQuote : isQuote c) (inside : c ∉ cs) (rest : List Char) :
    quotedIn (c :: cs ++ [c] ++ rest) = String.ofList cs :: quotedIn rest := by
  have goesOn : ∀ d ∈ cs, endsStretch (some c) d = false := fun d member =>
    beq_false_of_ne fun same => inside (same ▸ member)
  have opens : endsStretch none c := isQuote
  have closes : endsStretch (some c) c := beq_self_eq_true c
  rw [quotedIn, List.append_assoc, List.cons_append, List.singleton_append,
    stretchesFrom_cons_of_ends opens]
  change (stretchesFrom (some c) [] (cs ++ c :: rest)).filterMap Stretch.quoted? = _
  rw [stretchesFrom_append goesOn, stretchesFrom_cons_of_ends closes]
  rfl

theorem isQuote_iff {c : Char} : isQuote c ↔ c = '\'' ∨ c = '"' := by
  simp [isQuote]

theorem isQuote_eq_false_of {kind : Char → Bool} {c : Char} (known : kind c)
    (single : kind '\'' = false) (double : kind '"' = false) : isQuote c = false := by
  by_contra quote
  rcases isQuote_iff.mp (eq_true_of_ne_false quote) with rfl | rfl
  · exact absurd known (by simp [single])
  · exact absurd known (by simp [double])

theorem forall_isQuote_eq_false (noQuote : cs.any isQuote = false) :
    ∀ c ∈ cs, isQuote c = false := fun c member =>
  eq_false_of_ne_true (List.any_eq_false.mp noQuote c member)

theorem Blank.isQuote {blanks : List Char} (blank : Blank blanks) :
    ∀ c ∈ blanks, isQuote c = false := fun c member =>
  isQuote_eq_false_of (isSpace_iff.mpr (blank c member)) rfl rfl

theorem Digits.isQuote {digits : List Char} (some : Digits digits) :
    ∀ c ∈ digits, isQuote c = false := fun c member =>
  isQuote_eq_false_of (some.2 c member) rfl rfl

theorem Word.isQuote (word : Word cs) : ∀ c ∈ cs, isQuote c = false := fun c member =>
  isQuote_eq_false_of (word.isNameChar c member) rfl rfl

def Token.texts : Token → List String
  | .mark _ => []
  | .operand e => e.texts

def Token.Quoteless : Token → Prop
  | .mark symbol => ∀ c ∈ symbol.toList, isQuote c = false
  | .operand _ => True

theorem Token.Known.quoteless {token : Token} (known : token.Known) : token.Quoteless := by
  cases token with
  | operand e => trivial
  | mark symbol => exact fun c member => isQuote_eq_false_of (known.2 c member) rfl rfl

theorem Derives.texts_eq {phrase : Phrase} {tokens : List Token} {e : Expr}
    (derives : Derives phrase tokens e) : e.texts = tokens.flatMap Token.texts := by
  induction derives with
  | plain _ ih | single _ ih | base _ ih | unsigned _ ih => exact ih
  | conditional _ _ _ asked first second => simp [texts, Token.texts, asked, first, second]
  | operation _ _ _ before after | power _ _ before after =>
    simp [texts, Token.texts, before, after]
  | negate _ ih | not _ ih | parenthesized _ ih => simp [texts, Token.texts, ih]
  | operand => simp [Token.texts]

theorem Lexeme.quotedIn_append {token : Token} (lexeme : Lexeme cs token)
    (quoteless : token.Quoteless) (rest : List Char) :
    quotedIn (cs ++ rest) = token.texts ++ quotedIn rest := by
  cases lexeme with
  | mark => exact Expr.quotedIn_append quoteless rest
  | whole some => exact Expr.quotedIn_append some.isQuote rest
  | decimal some more =>
    refine Expr.quotedIn_append (List.forall_mem_append.mpr ⟨some.isQuote, ?_⟩) rest
    exact List.forall_mem_cons.mpr ⟨rfl, more.isQuote⟩
  | quoted isQuote inside => exact quotedIn_quoted (isQuote_iff.mpr isQuote) inside rest
  | truth =>
    rename_i b
    exact Expr.quotedIn_append (forall_isQuote_eq_false (by cases b <;> rfl)) rest
  | name word => exact Expr.quotedIn_append word.isQuote rest

theorem Starts.quotedIn_eq {text : List Char} {tokens : List Token}
    (starts : Starts text tokens rest) (quoteless : ∀ token ∈ tokens, token.Quoteless) :
    quotedIn text = tokens.flatMap Token.texts ++ quotedIn rest := by
  -- Only a quoted token has quotes, and it has both of them.
  induction starts with
  | nil => rfl
  | cons blank lexeme _ ih =>
    obtain ⟨here, later⟩ := List.forall_mem_cons.mp quoteless
    rw [List.append_assoc, quotedIn_append blank.isQuote, lexeme.quotedIn_append here, ih later,
      List.flatMap_cons, List.append_assoc]

/-- The texts of an expression are what stands between the quotes of its source. -/
theorem texts_of_read {source : String} {e : Expr} (taken : read source = .ok e) :
    e.texts = quotedTexts source := by
  obtain ⟨tokens, ⟨blanks, starts, blank⟩, derives⟩ :=
    readChars_sound (read_eq_ok_iff_readChars.mp taken)
  have nothing : quotedIn blanks = [] := by
    have bare := quotedIn_append blank.isQuote []
    rwa [List.append_nil] at bare
  have scanned := starts.quotedIn_eq fun token member =>
    (derives.known token member).quoteless
  rw [nothing, List.append_nil, ← derives.texts_eq] at scanned
  exact scanned.symm

end Tabular.Expr
