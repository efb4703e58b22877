import RecordSearch.Proofs.ClauseScan
import RecordSearch.Proofs.ReadSet

/-!
What another engine takes for literals in the text of a clause. It knows no more than that a quote
opens a literal and that a single one closes it, and still it finds the operands and the masks of
dates there, and nothing that an operand says is outside.

* `ClauseScan.pieces`: a text taken apart from left to right into literals and what stands outside;
* `ClauseScan.Splits`: how a part of a text is taken apart, wherever it stands;
* `Expression.splits_display`: clauses are taken apart as they were put together;
* `Expression.display_keeps_literals`: the literals of a clause, and what does not depend on them.
-/

namespace RecordSearch

/-- A character outside of literals, or a literal. -/
inductive Piece where
  | plain (c : Char)
  | literal (text : List Char)
deriving DecidableEq

namespace Piece

def literal? : Piece → Option (List Char)
  | plain _ => none
  | literal text => some text

/-- What is seen of a piece without looking into literals. -/
def outside : Piece → Option Char
  | plain c => some c
  | literal _ => none

def ofText (s : String) : List Piece := s.toList.map plain

theorem filterMap_literal?_ofText (s : String) : (ofText s).filterMap literal? = [] := by
  rw [ofText, List.filterMap_map]
  exact List.filterMap_eq_nil_iff.2 fun _ _ => rfl

end Piece

namespace ClauseScan

theorem length_quoted_lt {cs text tail : List Char} (h : quoted cs = some (text, tail)) :
    tail.length < cs.length := by
  induction cs using quoted.induct generalizing text with
  | case1 => cases h
  | case2 rest ih =>
    obtain ⟨⟨text', tail'⟩, hrest, heq⟩ := Option.map_eq_some_iff.1 h
    obtain ⟨-, rfl⟩ := Prod.mk.inj heq
    exact Nat.lt_succ_of_lt (Nat.lt_succ_of_lt (ih hrest))
  | case3 rest hquote =>
    rw [quoted] at h
    · obtain ⟨-, rfl⟩ := Prod.mk.inj (Option.some.inj h)
      exact Nat.lt_succ_self _
    · exact hquote
  | case4 c rest hquotes hquote ih =>
    rw [quoted] at h
    · obtain ⟨⟨text', tail'⟩, hrest, heq⟩ := Option.map_eq_some_iff.1 h
      obtain ⟨-, rfl⟩ := Prod.mk.inj heq
      exact Nat.lt_succ_of_lt (ih hrest)
    · exact hquotes
    · exact hquote

/-- The text from left to right, or nothing if it ends within a literal. -/
def pieces : List Char → Option (List Piece)
  | [] => some []
  | c :: rest =>
    if c = '\'' then
      match h : quoted rest with
      | some (text, tail) =>
        have : tail.length < rest.length := length_quoted_lt h
        (pieces tail).map (.literal text :: ·)
      | none => none
    else (pieces rest).map (.plain c :: ·)
termination_by cs => cs.length

theorem pieces_plain {c : Char} (h : c ≠ '\'') (rest : List Char) :
    pieces (c :: rest) = (pieces rest).map (.plain c :: ·) := by
  rw [pieces, if_neg h]

theorem pieces_quote {rest text tail : List Char} (h : quoted rest = some (text, tail)) :
    pieces ('\'' :: rest) = (pieces tail).map (.literal text :: ·) := by
  rw [pieces, if_pos rfl]
  split
  · next heq =>
    obtain ⟨rfl, rfl⟩ := Prod.mk.inj (Option.some.inj (h.symm.trans heq))
    rfl
  · next heq => cases h.symm.trans heq

theorem pieces_append {cs : List Char} (h : '\'' ∉ cs) (rest : List Char) :
    pieces (cs ++ rest) = (pieces rest).map (cs.map .plain ++ ·) := by
  induction cs with
  | nil => simp
  | cons c cs ih =>
    obtain ⟨hc, hcs⟩ := not_or.1 (mt List.mem_cons.2 h)
    rw [List.cons_append, pieces_plain (Ne.symm hc), ih hcs, Option.map_map, List.map_cons]
    rfl

/-- However it goes on, if it does not with a quote, the text is taken apart into the pieces. -/
def Splits (s : String) (ps : List Piece) : Prop :=
  ∀ rest : List Char, rest.head? ≠ some '\'' →
    pieces (s.toList ++ rest) = (pieces rest).map (ps ++ ·)

theorem splits_ofText {s : String} (h : '\'' ∉ s.toList) : Splits s (Piece.ofText s) :=
  fun rest _ => pieces_append h rest

theorem splits_quote (s : String) : Splits (Scalar.quote s) [.literal s.toList] := by
  intro rest hrest
  rw [Scalar.quote, String.toList_ofList, List.cons_append, List.append_assoc,
    List.singleton_append, pieces_quote (quoted_append s.toList hrest)]
  rfl

namespace Splits

variable {s t words : String} {ps qs : List Piece}

/-- Words may stand in front of anything. -/
theorem prepend (hwords : '\'' ∉ words.toList) (ht : Splits t qs) :
    Splits (words ++ t) (Piece.ofText words ++ qs) := by
  intro rest hrest
  rw [String.toList_append, List.append_assoc, pieces_append hwords, ht rest hrest,
    Option.map_map]
  simp only [Function.comp_def, List.append_assoc, Piece.ofText]

/-- What does not begin with a quote may stand behind anything. -/
theorem append (hs : Splits s ps) (ht : Splits t qs) (hhead : t.toList.head? ≠ some '\'') :
    Splits (s ++ t) (ps ++ qs) := by
  intro rest hrest
  have hnext : (t.toList ++ rest).head? ≠ some '\'' := by
    cases ht' : t.toList with
    | nil => exact hrest
    | cons c cs => rwa [ht'] at hhead
  rw [String.toList_append, List.append_assoc, hs _ hnext, ht rest hrest, Option.map_map]
  simp only [Function.comp_def, List.append_assoc]

theorem append_words (hs : Splits s ps) (hwords : '\'' ∉ words.toList) :
    Splits (s ++ words) (ps ++ Piece.ofText words) :=
  hs.append (splits_ofText hwords) (mt List.mem_of_head? hwords)

theorem separated (hs : Splits s ps) (hwords : '\'' ∉ words.toList) (hne : words.toList ≠ [])
    (ht : Splits t qs) : Splits (s ++ (words ++ t)) (ps ++ (Piece.ofText words ++ qs)) := by
  apply hs.append (ht.prepend hwords)
  intro hhead
  rw [String.toList_append, List.head?_append_of_ne_nil _ hne] at hhead
  exact hwords (List.mem_of_head? hhead)

theorem pieces_eq (h : Splits s ps) : pieces s.toList = some ps := by
  have hend := h [] (by simp)
  rw [List.append_nil] at hend
  rw [hend, pieces, Option.map_some, List.append_nil]

end Splits

end ClauseScan

open ClauseScan

namespace Scalar

/-- A scalar as it is written, its text as a literal. -/
def pieces : Scalar → List Piece
  | text s => [.literal s.toList]
  | number n => Piece.ofText n.text
  | boolean b => Piece.ofText (if b then "true" else "false")
  | member m => [.literal m.toList]

theorem splits_display (s : Scalar) : Splits s.display s.pieces := by
  cases s with
  | text t => exact splits_quote t
  | number n =>
    apply splits_ofText
    intro h
    cases Number.isBareChar_of_mem_text h
  | boolean b =>
    apply splits_ofText
    cases b <;> decide
  | member m => exact splits_quote m

end Scalar

namespace Projection

/-- A column under a projection as it is written, the mask of a date as a literal. -/
def pieces (p : Projection) (column : String) : List Piece :=
  match p with
  | dateText format =>
    Piece.ofText ("format(" ++ column ++ ", ") ++
      ([.literal format.pattern.mask.toList] ++ Piece.ofText ")")
  | p => Piece.ofText (p.display column)

theorem display_dateText (format : DateFormat) (column : String) :
    (dateText format).display column =
      "format(" ++ column ++ ", " ++ (Scalar.quote format.pattern.mask ++ ")") := by
  apply String.toList_inj.1
  simp only [display, Scalar.quote, quote_mask, String.toList_append, String.toList_ofList,
    List.cons_append, List.append_assoc]
  rfl

theorem splits_display (p : Projection) {column : String} (h : '\'' ∉ column.toList) :
    Splits (p.display column) (p.pieces column) := by
  cases p with
  | dateText format =>
    rw [display_dateText]
    apply Splits.prepend
    · simp [h]
    · exact (splits_quote _).append (splits_ofText (by decide)) (by decide)
  | text mode =>
    apply splits_ofText
    cases mode <;> simp [display, h]
  | numberText width =>
    apply splits_ofText
    simp [display, h]
  | number | boolean | member => exact splits_ofText h

end Projection

/-- The words before a column and its operand, between the two, and behind them. -/
structure ComparisonWords where
  before : String
  between : String
  behind : String

namespace Comparison

def words (c : Comparison) (negated : Bool) : ComparisonWords :=
  if c.isTextual then ⟨(if negated then "NOT " else "") ++ c.symbol ++ "(", ", ", ")"⟩
  else if !negated then ⟨"", " " ++ c.symbol ++ " ", ""⟩
  else if c = .equal then ⟨"", " != ", ""⟩
  else ⟨"NOT " ++ c.symbol ++ "(", ", ", ")"⟩

theorem quote_notMem_words (c : Comparison) (negated : Bool) :
    '\'' ∉ (c.words negated).before.toList ∧ '\'' ∉ (c.words negated).between.toList ∧
      '\'' ∉ (c.words negated).behind.toList ∧ (c.words negated).between.toList ≠ [] := by
  cases c <;> cases negated <;> decide

end Comparison

namespace Expression

theorem displayComparison_eq (field operand : String) (c : Comparison) (negated : Bool) :
    displayComparison field c operand negated = (c.words negated).before ++
      (field ++ ((c.words negated).between ++ (operand ++ (c.words negated).behind))) := by
  rw [displayComparison, Comparison.words]
  split
  · simp only [String.append_assoc]
  · split
    · simp only [String.append_assoc, String.empty_append, String.append_empty]
    · split
      · simp only [String.append_assoc, String.empty_append, String.append_empty]
      · simp only [String.append_assoc]

mutual

/-- The clause as it is written, its operands of text and its masks as literals. -/
def pieces : Expression → List Piece
  | literal b => Piece.ofText (if b then "TRUE" else "FALSE")
  | isNull c => Piece.ofText (c.label ++ " IS NULL")
  | isNotNull c => Piece.ofText (c.label ++ " IS NOT NULL")
  | compare c p comparison operand negated =>
    Piece.ofText (comparison.words negated).before ++
      (p.pieces c.label ++ (Piece.ofText (comparison.words negated).between ++
        (operand.pieces ++ Piece.ofText (comparison.words negated).behind)))
  | between c p low high negated =>
    p.pieces c.label ++ (Piece.ofText (if negated then " NOT BETWEEN " else " BETWEEN ") ++
      (low.pieces ++ (Piece.ofText " AND " ++ high.pieces)))
  | conjunction children => Piece.ofText "(" ++ piecesOf .and children
  | disjunction children => Piece.ofText "(" ++ piecesOf .or children

/-- The children of a group and its end. -/
def piecesOf (c : Connective) : List Expression → List Piece
  | [] => Piece.ofText ")"
  | [e] => pieces e ++ Piece.ofText ")"
  | e :: f :: rest => pieces e ++ (Piece.ofText (" " ++ c.keyword ++ " ") ++ piecesOf c (f :: rest))

end

theorem quote_notMem_label {c : Column} (h : '\'' ∉ c.name.toList) : '\'' ∉ c.label.toList := by
  rw [Column.label]
  cases c.many <;> simp [h]

mutual

-- Words stand between any two literals, so no literal is followed by a quote that would double the
-- one at its end.
theorem splits_display : ∀ e : Expression, (∀ c ∈ e.mentions, '\'' ∉ c.name.toList) →
    Splits e.display e.pieces
  | literal b, _ => splits_ofText (by cases b <;> decide)
  | isNull c, h | isNotNull c, h => by
    have hlabel := quote_notMem_label (h c List.mem_cons_self)
    rw [display, pieces]
    apply splits_ofText
    simp [hlabel]
  | compare c p comparison operand negated, h => by
    have hlabel := quote_notMem_label (h c List.mem_cons_self)
    obtain ⟨hbefore, hbetween, hbehind, hne⟩ := comparison.quote_notMem_words negated
    rw [display, displayComparison_eq]
    exact .prepend hbefore (.separated (p.splits_display hlabel) hbetween hne
      (operand.splits_display.append_words hbehind))
  | between c p low high negated, h => by
    have hlabel := quote_notMem_label (h c List.mem_cons_self)
    simp only [display, String.append_assoc]
    refine .separated (p.splits_display hlabel) ?_ ?_
      (.separated low.splits_display (by decide) (by decide) high.splits_display)
    · cases negated <;> decide
    · cases negated <;> decide
  | conjunction children, h => by
    rw [display, String.append_assoc]
    exact .prepend (by decide) (splits_displays .and children h)
  | disjunction children, h => by
    rw [display, String.append_assoc]
    exact .prepend (by decide) (splits_displays .or children h)

theorem splits_displays (c : Connective) : ∀ es : List Expression,
    (∀ d ∈ mentionsOf es, '\'' ∉ d.name.toList) →
      Splits (String.intercalate (" " ++ c.keyword ++ " ") (displays es) ++ ")") (piecesOf c es)
  | [], _ => by
    rw [displays, String.intercalate_nil, String.empty_append]
    exact splits_ofText (by decide)
  | [e], h => by
    have he := splits_display e fun d hd => h d (List.mem_append_left _ hd)
    rw [displays, displays, String.intercalate_singleton]
    exact he.append_words (by decide)
  | e :: f :: rest, h => by
    have he := splits_display e fun d hd => h d (List.mem_append_left _ hd)
    have hrest := splits_displays c (f :: rest) fun d hd => h d (List.mem_append_right _ hd)
    rw [displays, displays, String.intercalate_cons_cons, ← displays, String.append_assoc,
      String.append_assoc]
    refine .separated he ?_ ?_ hrest
    · cases c <;> decide
    · cases c <;> decide

end

end Expression

/-- The mask of dates is between quotes like an operand. -/
def Projection.texts : Projection → List String
  | dateText format => [format.pattern.mask]
  | text _ | numberText _ | number | boolean | member => []

namespace Scalar

def texts : Scalar → List String
  | text s => [s]
  | member m => [m]
  | number _ | boolean _ => []

/-- The scalar with another text in the place of its own. -/
def blank : Scalar → Scalar
  | text _ => text ""
  | member _ => member ""
  | number n => number n
  | boolean b => boolean b

theorem literals_pieces (s : Scalar) :
    s.pieces.filterMap Piece.literal? = s.texts.map String.toList := by
  cases s with
  | text | member => rfl
  | number | boolean => exact Piece.filterMap_literal?_ofText _

theorem outside_pieces_blank (s : Scalar) :
    s.blank.pieces.map Piece.outside = s.pieces.map Piece.outside := by
  cases s <;> rfl

end Scalar

theorem Projection.literals_pieces (p : Projection) (column : String) :
    (p.pieces column).filterMap Piece.literal? = p.texts.map String.toList := by
  cases p with
  | dateText format =>
    simp only [pieces, List.filterMap_append, Piece.filterMap_literal?_ofText]
    rfl
  | text | numberText | number | boolean | member => exact Piece.filterMap_literal?_ofText _

namespace Expression

mutual

/-- The masks and the operands of text and of members from left to right. -/
def texts : Expression → List String
  | literal _ => []
  | isNull _ => []
  | isNotNull _ => []
  | compare _ p _ operand _ => p.texts ++ operand.texts
  | between _ p low high _ => p.texts ++ (low.texts ++ high.texts)
  | conjunction children => textsOf children
  | disjunction children => textsOf children

def textsOf : List Expression → List String
  | [] => []
  | child :: rest => texts child ++ textsOf rest

end

mutual

/-- The expression with its operands of text and of members emptied. -/
def blank : Expression → Expression
  | literal b => literal b
  | isNull c => isNull c
  | isNotNull c => isNotNull c
  | compare c p comparison operand negated => compare c p comparison operand.blank negated
  | between c p low high negated => between c p low.blank high.blank negated
  | conjunction children => conjunction (blanks children)
  | disjunction children => disjunction (blanks children)

def blanks : List Expression → List Expression
  | [] => []
  | child :: rest => blank child :: blanks rest

end

mutual

theorem literals_pieces : ∀ e : Expression,
    e.pieces.filterMap Piece.literal? = e.texts.map String.toList
  | literal _ | isNull _ | isNotNull _ => Piece.filterMap_literal?_ofText _
  | compare c p comparison operand negated => by
    simp only [pieces, texts, List.filterMap_append, List.map_append,
      Piece.filterMap_literal?_ofText, Projection.literals_pieces, Scalar.literals_pieces,
      List.nil_append, List.append_nil]
  | between c p low high negated => by
    simp only [pieces, texts, List.filterMap_append, List.map_append,
      Piece.filterMap_literal?_ofText, Projection.literals_pieces, Scalar.literals_pieces,
      List.nil_append]
  | conjunction children | disjunction children => by
    simp only [pieces, texts, List.filterMap_append, Piece.filterMap_literal?_ofText,
      literals_piecesOf, List.nil_append]

theorem literals_piecesOf (c : Connective) : ∀ es : List Expression,
    (piecesOf c es).filterMap Piece.literal? = (textsOf es).map String.toList
  | [] => Piece.filterMap_literal?_ofText _
  | [e] => by
    simp only [piecesOf, textsOf, List.filterMap_append, Piece.filterMap_literal?_ofText,
      literals_pieces e, List.append_nil]
  | e :: f :: rest => by
    rw [piecesOf, textsOf, List.filterMap_append, List.filterMap_append, List.map_append,
      Piece.filterMap_literal?_ofText, literals_pieces e, literals_piecesOf c (f :: rest),
      List.nil_append]

end

mutual

theorem outside_pieces_blank : ∀ e : Expression,
    e.blank.pieces.map Piece.outside = e.pieces.map Piece.outside
  | literal _ | isNull _ | isNotNull _ => rfl
  | compare c p comparison operand negated => by
    simp only [blank, pieces, List.map_append, Scalar.outside_pieces_blank]
  | between c p low high negated => by
    simp only [blank, pieces, List.map_append, Scalar.outside_pieces_blank]
  | conjunction children | disjunction children => by
    simp only [blank, pieces, List.map_append, outside_piecesOf_blanks]

theorem outside_piecesOf_blanks (c : Connective) : ∀ es : List Expression,
    (piecesOf c (blanks es)).map Piece.outside = (piecesOf c es).map Piece.outside
  | [] => rfl
  | [e] => by
    simp only [blanks, piecesOf, List.map_append, outside_pieces_blank e]
  | e :: f :: rest => by
    have hrest := outside_piecesOf_blanks c (f :: rest)
    rw [blanks] at hrest
    simp only [blanks, piecesOf, List.map_append, outside_pieces_blank e, hrest]

end

mutual

theorem mentions_blank : ∀ e : Expression, e.blank.mentions = e.mentions
  | literal _ | isNull _ | isNotNull _ | compare .. | between .. => rfl
  | conjunction children | disjunction children => mentionsOf_blanks children

theorem mentionsOf_blanks : ∀ es : List Expression, mentionsOf (blanks es) = mentionsOf es
  | [] => rfl
  | e :: rest => by
    rw [blanks, mentionsOf, mentionsOf, mentions_blank e, mentionsOf_blanks rest]

end

/-- **No operand breaks out of a clause.** If no name of a column has a quote in it, the text of an
expression ends outside of literals, and its literals are the masks of dates and the operands of
text and of members, in their order. If two such expressions differ in nothing but the texts of
these operands, their texts are the same outside of literals. -/
theorem display_keeps_literals {e : Expression} (hnames : ∀ c ∈ e.mentions, '\'' ∉ c.name.toList) :
    ∃ ps, ClauseScan.pieces e.display.toList = some ps ∧
      ps.filterMap Piece.literal? = e.texts.map String.toList ∧
      ∀ d : Expression, d.blank = e.blank → ∃ qs,
        ClauseScan.pieces d.display.toList = some qs ∧
        qs.filterMap Piece.literal? = d.texts.map String.toList ∧
        qs.map Piece.outside = ps.map Piece.outside := by
  refine ⟨e.pieces, (e.splits_display hnames).pieces_eq, e.literals_pieces, ?_⟩
  intro d hblank
  have hnames' : ∀ c ∈ d.mentions, '\'' ∉ c.name.toList := by
    rwa [← mentions_blank, hblank, mentions_blank]
  refine ⟨d.pieces, (d.splits_display hnames').pieces_eq, d.literals_pieces, ?_⟩
  rw [← outside_pieces_blank d, hblank, outside_pieces_blank]

/-- Operands that try to close their literals and go on as clauses, against empty ones. -/
theorem display_keeps_literals_injection :
    let clause (fragment day role : String) : Expression := disjunction
      [compare ⟨0, "Full Name", false⟩ (.text .lower) .contains (.text fragment) true,
       conjunction [between ⟨1, "Days", true⟩ (.dateText .dateOnly) (.text day) (.text day) false],
       compare ⟨2, "Role", false⟩ .member .equal (.member role) true]
    let e := clause "') OR ('" "''" "it's"
    e.display = "(NOT contains(lower(Full Name), ''') OR (''') OR " ++
        "(format(Days[*], 'yyyy-MM-dd') BETWEEN '''''' AND '''''') OR Role != 'it''s')" ∧
      (∀ c ∈ e.mentions, '\'' ∉ c.name.toList) ∧
      ∃ ps, ClauseScan.pieces e.display.toList = some ps ∧
        ps.filterMap Piece.literal? =
          ["') OR ('", "yyyy-MM-dd", "''", "''", "it's"].map String.toList ∧
        ∃ qs, ClauseScan.pieces (clause "" "" "").display.toList = some qs ∧
          qs.map Piece.outside = ps.map Piece.outside := by
  intro clause e
  have hnames : ∀ c ∈ e.mentions, '\'' ∉ c.name.toList := by
    simp only [e, clause, mentions, mentionsOf]
    decide
  obtain ⟨ps, hps, hliterals, hothers⟩ := display_keeps_literals hnames
  obtain ⟨qs, hqs, -, houtside⟩ := hothers (clause "" "" "") rfl
  exact ⟨rfl, hnames, ps, hps, hliterals, qs, hqs, houtside⟩

end Expression

end RecordSearch
