import RecordSearch.Clause.Expression
import RecordSearch.Proofs.NumberText
import RecordSearch.Proofs.ShortestDigits

/-!
Reading a single clause back from its text. Each part is found by where it ends: a name by the first
character that is no letter of a name, quoted text by a quote that is not doubled, and what stands
between a column and its operands by the words that can stand there.

* `ClauseScan.quoted_append`: quoted text is read back, whatever is in it;
* `ClauseScan.subject_display`: so is a column under a projection;
* `ClauseScan.literal_display`: so is a scalar;
* `ClauseScan.connection_append`: and so are the words between the two.
-/

namespace RecordSearch

/-- A column under a projection, as it is written. Without a function there is only the column. -/
structure Subject where
  function : List Char
  name : List Char
  many : Bool
  mask : List Char

inductive Literal where
  | quoted (text : List Char)
  | bare (text : List Char)

/-- What a clause that is no group says. -/
inductive Phrase where
  | constant (word : List Char)
  | nullTest (subject : Subject) (negated : Bool)
  | comparison (subject : Subject) (comparison : Comparison) (negated : Bool) (operand : Literal)
  | range (subject : Subject) (negated : Bool) (low high : Literal)

/-- The words between a column and its operands. -/
inductive Connection where
  | nullTest (negated : Bool)
  | comparison (comparison : Comparison) (negated : Bool)
  | range (negated : Bool)

namespace Connection

def text : Connection → String
  | nullTest negated => if negated then " IS NOT NULL" else " IS NULL"
  | comparison c negated => " " ++ (if negated then "!=" else c.symbol) ++ " "
  | range negated => if negated then " NOT BETWEEN " else " BETWEEN "

def all : List Connection :=
  [nullTest false, nullTest true, comparison .equal false, comparison .equal true,
   comparison .lessThan false, comparison .lessThanOrEqual false, comparison .greaterThan false,
   comparison .greaterThanOrEqual false, range false, range true]

end Connection

namespace ClauseScan

/-- The characters of names. -/
def isNameChar (c : Char) : Bool := c.isAlphanum || c == '_'

/-- The characters of numbers and of truth values. -/
def isBareChar (c : Char) : Bool := c.isAlphanum || c == '-' || c == '.'

/-- What follows a text that has to come first. -/
def after? : List Char → List Char → Option (List Char)
  | [], cs => some cs
  | _ :: _, [] => none
  | a :: start, c :: cs => if a = c then after? start cs else none

/-- Text up to a single quote, where two of them stand for one. -/
def quoted : List Char → Option (List Char × List Char)
  | [] => none
  | '\'' :: '\'' :: rest => (quoted rest).map fun (text, tail) => ('\'' :: text, tail)
  | '\'' :: rest => some ([], rest)
  | c :: rest => (quoted rest).map fun (text, tail) => (c :: text, tail)

def literal : List Char → Option (Literal × List Char)
  | '\'' :: rest => (quoted rest).map fun (text, tail) => (.quoted text, tail)
  | cs => some (.bare (cs.takeWhile isBareChar), cs.dropWhile isBareChar)

/-- A name, and whether it is marked as a list. -/
def column (cs : List Char) : (List Char × Bool) × List Char :=
  let rest := cs.dropWhile isNameChar
  match after? "[*]".toList rest with
  | some tail => ((cs.takeWhile isNameChar, true), tail)
  | none => ((cs.takeWhile isNameChar, false), rest)

/-- The mask of a function that has one, and the closing parenthesis. -/
def mask (cs : List Char) : Option (List Char × List Char) :=
  match after? ", '".toList cs with
  | some rest => do
    let (text, rest) ← quoted rest
    return (text, ← after? ")".toList rest)
  | none => (after? ")".toList cs).map fun tail => ([], tail)

def subject (cs : List Char) : Option (Subject × List Char) :=
  match after? "(".toList (cs.dropWhile isNameChar) with
  | some inside => do
    let ((name, many), rest) := column inside
    let (text, tail) ← mask rest
    return (⟨cs.takeWhile isNameChar, name, many, text⟩, tail)
  | none =>
    let ((name, many), tail) := column cs
    some (⟨[], name, many, []⟩, tail)

def connection (cs : List Char) : Option (Connection × List Char) :=
  Connection.all.findSome? fun c => (after? c.text.toList cs).map fun tail => (c, tail)

/-- The search for a fragment, from behind its opening parenthesis. -/
def call (comparison : Comparison) (negated : Bool) (cs : List Char) :
    Option (Phrase × List Char) := do
  let (s, cs) ← subject cs
  let (operand, cs) ← literal (← after? ", ".toList cs)
  return (.comparison s comparison negated operand, ← after? ")".toList cs)

/-- What is connected to the subject, if anything is. -/
def connected (s : Subject) (cs : List Char) : Option (Phrase × List Char) := do
  match ← connection cs with
  | (.nullTest negated, tail) => return (.nullTest s negated, tail)
  | (.comparison comparison negated, tail) =>
    let (operand, tail) ← literal tail
    return (.comparison s comparison negated operand, tail)
  | (.range negated, tail) =>
    let (low, tail) ← literal tail
    let (high, tail) ← literal (← after? " AND ".toList tail)
    return (.range s negated low high, tail)

def fragments : List Comparison := [.contains, .startsWith, .endsWith]

/-- The search for a fragment that a clause opens with its first word, if that is the comparison or
stands before it as a negation. -/
def fragment? (word rest : List Char) : Option (Comparison × Bool × List Char) :=
  fragments.findSome? fun c =>
    if c.symbol.toList = word then (after? "(".toList rest).map fun tail => (c, false, tail)
    else (after? (" " ++ c.symbol ++ "(").toList rest).map fun tail => (c, true, tail)

/-- The first word of a clause is a function, a negation, a column or a constant, and what stands
behind it says which. Groups have no first word. -/
def phrase (cs : List Char) : Option (Phrase × List Char) :=
  let word := cs.takeWhile isNameChar
  let rest := cs.dropWhile isNameChar
  if word = [] then none
  else
    match fragment? word rest with
    | some (c, negated, inside) => call c negated inside
    | none => ((subject cs).bind fun (s, tail) => connected s tail).or (some (.constant word, rest))

variable {rest : List Char}

theorem after?_append (start rest : List Char) : after? start (start ++ rest) = some rest := by
  induction start with
  | nil => rfl
  | cons a start ih => rw [List.cons_append, after?, if_pos rfl, ih]

/-- Doubling single quotes is undone up to the first quote that stands alone. -/
theorem quoted_append (text : List Char) (hrest : rest.head? ≠ some '\'') :
    quoted (text.flatMap (fun c => if c = '\'' then ['\'', '\''] else [c]) ++ '\'' :: rest) =
      some (text, rest) := by
  induction text with
  | nil =>
    cases rest with
    | nil => rfl
    | cons c rest =>
      rw [List.flatMap_nil, List.nil_append, quoted]
      rintro tail ⟨⟩
      exact hrest rfl
  | cons c text ih =>
    by_cases hc : c = '\''
    · simp only [List.flatMap_cons, hc, if_true, List.cons_append, List.nil_append, quoted, ih,
        Option.map_some]
    · rw [List.flatMap_cons, if_neg hc, List.cons_append, List.nil_append, List.cons_append, quoted,
        ih, Option.map_some]
      all_goals simp [hc]

end ClauseScan

/-- What follows a name in a clause. -/
def EndsName (rest : List Char) : Prop :=
  ∃ c tail, rest = c :: tail ∧ (c = ' ' ∨ c = ',' ∨ c = ')')

/-- What follows a scalar in a clause. -/
def EndsScalar (rest : List Char) : Prop := ∀ c ∈ rest.head?, c = ' ' ∨ c = ')'

open ClauseScan

theorem ClauseScan.isBareChar_of_isDigit {c : Char} (h : c.isDigit = true) :
    isBareChar c = true := by
  rw [isBareChar, Char.isAlphanum, h, Bool.or_true, Bool.true_or, Bool.true_or]

theorem Positional.isBareChar_of_mem_chars {p : Positional} {c : Char} (h : c ∈ p.chars) :
    isBareChar c = true := by
  rw [chars, List.mem_append] at h
  rcases h with h | h
  · exact isBareChar_of_isDigit (p.isDigit_whole c h)
  · split at h
    · cases h
    · rcases List.mem_cons.1 h with rfl | h
      · rfl
      · exact isBareChar_of_isDigit (p.isDigit_places c h)

theorem isBareChar_of_mem_signChars {negative : Bool} {c : Char} (h : c ∈ signChars negative) :
    isBareChar c = true := by
  cases negative with
  | false => cases h
  | true =>
    obtain rfl := List.mem_singleton.1 h
    rfl

theorem Digits.isBareChar_of_mem_ofInt {n : Int} {c : Char} (h : c ∈ ofInt n) :
    isBareChar c = true := by
  rw [ofInt] at h
  split at h
  · rcases List.mem_cons.1 h with rfl | h
    · rfl
    · exact isBareChar_of_isDigit (isDigit_of_mem_ofNat h)
  · exact isBareChar_of_isDigit (isDigit_of_mem_ofNat h)

theorem Floating.isBareChar_of_mem_text {x : Double} {c : Char} (h : c ∈ x.text.toList) :
    isBareChar c = true := by
  cases x with
  | nan =>
    have hall : ∀ c ∈ "NaN".toList, isBareChar c = true := List.all_eq_true.1 rfl
    exact hall c h
  | infinity negative =>
    have hall : ∀ c ∈ (if negative then "-inf" else "inf").toList, isBareChar c = true := by
      cases negative <;> exact List.all_eq_true.1 rfl
    exact hall c h
  | finite negative m =>
    obtain ⟨p, hp, -⟩ := (m.shortest Ratio.nearestUp).isPositional_plain
    rw [text, hp, String.toList_ofList] at h
    exact (List.mem_append.1 h).elim isBareChar_of_mem_signChars Positional.isBareChar_of_mem_chars

theorem Number.isBareChar_of_mem_text {n : Number} {c : Char} (h : c ∈ n.text.toList) :
    isBareChar c = true := by
  cases n with
  | int v =>
    rw [text, Digits.intText, String.toList_ofList] at h
    exact Digits.isBareChar_of_mem_ofInt h
  | uint v =>
    rw [text, Digits.natText, String.toList_ofList] at h
    exact isBareChar_of_isDigit (Digits.isDigit_of_mem_ofNat h)
  | float x => exact Floating.isBareChar_of_mem_text h
  | decimal d =>
    rw [text, Decimal.text_eq, String.toList_ofList] at h
    exact (List.mem_append.1 h).elim isBareChar_of_mem_signChars Positional.isBareChar_of_mem_chars

namespace ClauseScan

variable {rest : List Char}

theorem literal_bare {text : List Char} (htext : ∀ c ∈ text, isBareChar c = true)
    (hrest : EndsScalar rest) : literal (text ++ rest) = some (.bare text, rest) := by
  have hstop : ∀ c ∈ rest.head?, isBareChar c = false := by
    intro c hc
    rcases hrest c hc with rfl | rfl <;> rfl
  obtain ⟨htake, hdrop⟩ := span_append htext hstop
  rw [literal, htake, hdrop]
  rintro tail hquote
  cases text with
  | nil =>
    rw [List.nil_append] at hquote
    have := hrest '\'' (by rw [hquote]; rfl)
    simp at this
  | cons c text =>
    obtain ⟨rfl, -⟩ := List.cons.inj hquote
    cases htext '\'' List.mem_cons_self

end ClauseScan

/-- A scalar as it is written: text and members between quotes. -/
def Scalar.literal : Scalar → Literal
  | text s | member s => .quoted s.toList
  | number n => .bare n.text.toList
  | boolean b => .bare (if b then "true" else "false").toList

namespace ClauseScan

variable {rest : List Char}

theorem literal_quote (s : String) (hrest : EndsScalar rest) :
    literal ((Scalar.quote s).toList ++ rest) = some (.quoted s.toList, rest) := by
  have hquote : rest.head? ≠ some '\'' := by
    intro h
    have := hrest '\'' h
    simp at this
  rw [Scalar.quote, String.toList_ofList, List.cons_append, List.append_assoc, literal]
  rw [List.singleton_append, quoted_append s.toList hquote, Option.map_some]

theorem literal_display (s : Scalar) (hrest : EndsScalar rest) :
    literal (s.display.toList ++ rest) = some (s.literal, rest) := by
  cases s with
  | text t => exact literal_quote t hrest
  | member t => exact literal_quote t hrest
  | number n => exact literal_bare (fun _ => Number.isBareChar_of_mem_text) hrest
  | boolean b =>
    refine literal_bare ?_ hrest
    cases b <;> exact List.all_eq_true.1 rfl

end ClauseScan

/-- The function that a projection is written with, if any. -/
def Projection.function : Projection → String
  | text .lower => "lower"
  | text .upper => "upper"
  | numberText _ => "text"
  | dateText _ => "format"
  | text .default | number | boolean | member => ""

/-- The second argument of the function, if it has one. -/
def Projection.mask : Projection → String
  | dateText format => format.pattern.mask
  | text _ | numberText _ | number | boolean | member => ""

/-- A column and a projection as they are written together. -/
def Column.subject (c : Column) (p : Projection) : Subject :=
  ⟨p.function.toList, c.name.toList, c.many, p.mask.toList⟩

namespace ClauseScan

variable {rest : List Char} {c : Column} {p : Projection}

theorem not_isNameChar_of_endsName (h : EndsName rest) : ∀ c ∈ rest.head?, isNameChar c = false := by
  obtain ⟨c, tail, rfl, hc⟩ := h
  intro d hd
  obtain rfl := Option.some.inj hd
  rcases hc with rfl | rfl | rfl <;> rfl

theorem column_label (hname : ∀ d ∈ c.name.toList, isNameChar d = true) (hrest : EndsName rest) :
    column (c.label.toList ++ rest) = ((c.name.toList, c.many), rest) := by
  rw [Column.label]
  cases hmany : c.many with
  | true =>
    have hstop : ∀ d ∈ ("[*]".toList ++ rest).head?, isNameChar d = false := by
      rintro d ⟨⟩
      rfl
    obtain ⟨htake, hdrop⟩ := span_append hname hstop
    rw [if_pos rfl, String.toList_append, List.append_assoc, column]
    simp only [htake, hdrop, after?_append]
  | false =>
    obtain ⟨htake, hdrop⟩ := span_append hname (not_isNameChar_of_endsName hrest)
    have hlist : after? "[*]".toList rest = none := by
      obtain ⟨d, tail, rfl, hd⟩ := hrest
      rcases hd with rfl | rfl | rfl <;> rfl
    rw [if_neg Bool.false_ne_true, column]
    simp only [htake, hdrop, hlist]

/-- Masks have no quote in them. -/
theorem quote_mask (format : DateFormat) :
    format.pattern.mask.toList.flatMap (fun c => if c = '\'' then ['\'', '\''] else [c]) =
      format.pattern.mask.toList := by
  cases format <;> rfl

theorem mask_append (format : DateFormat) (rest : List Char) :
    mask (", '".toList ++ (format.pattern.mask.toList ++ ("')".toList ++ rest))) =
      some (format.pattern.mask.toList, rest) := by
  have hquoted : quoted (format.pattern.mask.toList.flatMap
      (fun c => if c = '\'' then ['\'', '\''] else [c]) ++ '\'' :: (')' :: rest)) =
      some (format.pattern.mask.toList, ')' :: rest) := quoted_append _ (by simp)
  rw [quote_mask] at hquoted
  change mask (", '".toList ++ (format.pattern.mask.toList ++ '\'' :: (')' :: rest))) = _
  simp only [mask, after?_append, hquoted]
  rfl

theorem subject_label (hname : ∀ d ∈ c.name.toList, isNameChar d = true) (hrest : EndsName rest) :
    subject (c.label.toList ++ rest) = some (⟨[], c.name.toList, c.many, []⟩, rest) := by
  have hfunction : after? "(".toList ((c.label.toList ++ rest).dropWhile isNameChar) = none := by
    rw [Column.label]
    cases c.many with
    | true =>
      rw [if_pos rfl, String.toList_append, List.append_assoc,
        List.dropWhile_append_of_pos hname]
      rfl
    | false =>
      rw [if_neg Bool.false_ne_true,
        (span_append hname (not_isNameChar_of_endsName hrest)).2]
      obtain ⟨d, tail, rfl, hd⟩ := hrest
      rcases hd with rfl | rfl | rfl <;> rfl
  rw [subject, hfunction]
  simp only [column_label hname hrest]

/-- A function of a column, and what stands in its parentheses behind the column. -/
theorem subject_function {function arguments text : List Char}
    (hfunction : ∀ d ∈ function, isNameChar d = true)
    (hname : ∀ d ∈ c.name.toList, isNameChar d = true) (harguments : EndsName arguments)
    (hmask : mask arguments = some (text, rest)) :
    subject (function ++ ("(".toList ++ (c.label.toList ++ arguments))) =
      some (⟨function, c.name.toList, c.many, text⟩, rest) := by
  have hstop : ∀ d ∈ ("(".toList ++ (c.label.toList ++ arguments)).head?, isNameChar d = false := by
    rintro d ⟨⟩
    rfl
  obtain ⟨htake, hdrop⟩ := span_append hfunction hstop
  rw [subject, htake, hdrop, after?_append]
  simp only [column_label hname harguments, hmask]
  rfl

theorem subject_display (hname : ∀ d ∈ c.name.toList, isNameChar d = true)
    (hrest : EndsName rest) :
    subject ((p.display c.label).toList ++ rest) = some (c.subject p, rest) := by
  have hclose : EndsName (")".toList ++ rest) := ⟨')', rest, rfl, .inr (.inr rfl)⟩
  have hmask : mask (")".toList ++ rest) = some ([], rest) := rfl
  have hone : ∀ function : String, (∀ d ∈ function.toList, isNameChar d = true) →
      subject ((function ++ "(" ++ c.label ++ ")").toList ++ rest) =
        some (⟨function.toList, c.name.toList, c.many, []⟩, rest) := by
    intro function hfunction
    have h := subject_function hfunction hname hclose hmask
    simpa only [String.toList_append, List.append_assoc] using h
  cases p with
  | text mode =>
    cases mode with
    | default => exact subject_label hname hrest
    | lower => exact hone "lower" (List.all_eq_true.1 rfl)
    | upper => exact hone "upper" (List.all_eq_true.1 rfl)
  | numberText width => exact hone "text" (List.all_eq_true.1 rfl)
  | dateText format =>
    have hcomma : EndsName (", '".toList ++ (format.pattern.mask.toList ++ ("')".toList ++ rest))) :=
      ⟨',', _, rfl, .inr (.inl rfl)⟩
    have hformat : ∀ d ∈ "format".toList, isNameChar d = true := List.all_eq_true.1 rfl
    have h := subject_function hformat hname hcomma (mask_append format rest)
    simp only [Projection.display, String.toList_append, List.append_assoc]
    exact h
  | number | boolean | member => exact subject_label hname hrest

/-- The words between a column and its operands are told apart before their end. -/
theorem connection_append {c : Connection} (h : c ∈ Connection.all) (rest : List Char) :
    connection (c.text.toList ++ rest) = some (c, rest) := by
  simp only [Connection.all, List.mem_cons, List.not_mem_nil, or_false] at h
  rcases h with rfl | rfl | rfl | rfl | rfl | rfl | rfl | rfl | rfl | rfl <;> rfl

end ClauseScan

end RecordSearch
