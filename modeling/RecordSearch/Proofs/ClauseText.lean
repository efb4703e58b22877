import RecordSearch.Proofs.ClauseReading
import RecordSearch.Proofs.Filtering

/-!
The text of a planned expression says which expression it is, as long as the schema names its
fields by identifiers. What the text leaves out, such as the position of a field or the width of a
number, is found again in the schema.

* `Number.eq_of_text`: numbers of one representation have different texts;
* `Scalar.IsOperand.eq_of_literal`: a column and its operand are known by their texts;
* `Expression.IsPlanned.eq_of_phrase`: so is a clause that is no group;
* `Expression.IsPlanned.eq_of_display`: and so is every planned expression;
* `Search.evaluate_eq_of_display`: searches with one text of their plans find the same records.
-/

namespace RecordSearch

/-- The representations of numbers. -/
inductive Representation where
  | int
  | uint
  | float
  | decimal

def Number.representation : Number → Representation
  | int _ => .int
  | uint _ => .uint
  | float _ => .float
  | decimal _ => .decimal

/-- The representation of what is held in a width. -/
def Width.representation : Width → Representation
  | i8 | i16 | i32 | i64 => .int
  | u8 | u16 | u32 | u64 => .uint
  | f32 | f64 => .float
  | decimal => .decimal

theorem Width.representation_of_coerce? {w : Width} {m n : Number} (h : w.coerce? m = some n) :
    n.representation = w.representation := by
  have hsigned : ∀ {bits : Nat}, m.whole?.bind (fitSigned bits) = some n →
      n.representation = .int := by
    intro bits h
    obtain ⟨z, -, h⟩ := Option.bind_eq_some_iff.1 h
    obtain ⟨-, h⟩ := Option.ite_none_right_eq_some.1 h
    rw [← Option.some.inj h]
    rfl
  have hunsigned : ∀ {bits : Nat}, m.whole?.bind (fitUnsigned bits) = some n →
      n.representation = .uint := by
    intro bits h
    obtain ⟨z, -, h⟩ := Option.bind_eq_some_iff.1 h
    obtain ⟨-, h⟩ := Option.ite_none_right_eq_some.1 h
    rw [← Option.some.inj h]
    rfl
  cases w with
  | i8 | i16 | i32 | i64 => exact hsigned h
  | u8 | u16 | u32 | u64 => exact hunsigned h
  | f32 | f64 =>
    rw [← Option.some.inj h]
    rfl
  | decimal =>
    obtain ⟨d, -, rfl⟩ := Option.map_eq_some_iff.1 h
    rfl

/-- Numbers of one representation have different texts. -/
theorem Number.eq_of_text {m n : Number} (hrepr : m.representation = n.representation)
    (h : m.text = n.text) : m = n := by
  cases m with
  | int v =>
    cases n with
    | int w =>
      have hread := Digits.toInt?_intText v.toInt
      rw [show Digits.intText v.toInt = Digits.intText w.toInt from h,
        Digits.toInt?_intText] at hread
      rw [Int64.toInt_inj.1 (Option.some.inj hread)]
    | uint | float | decimal => cases hrepr
  | uint v =>
    cases n with
    | uint w =>
      have hread := Digits.toNat?_natText v.toNat
      rw [show Digits.natText v.toNat = Digits.natText w.toNat from h,
        Digits.toNat?_natText] at hread
      rw [UInt64.toNat_inj.1 (Option.some.inj hread)]
    | int | float | decimal => cases hrepr
  | float x =>
    cases n with
    | float y => rw [Floating.text_injective h]
    | int | uint | decimal => cases hrepr
  | decimal d =>
    cases n with
    | decimal e => rw [Decimal.text_injective h]
    | int | uint | float => cases hrepr

/-- The format that is written with a mask. -/
def DateFormat.ofMask? (mask : String) : Option DateFormat :=
  all.find? fun format => format.pattern.mask == mask

theorem DateFormat.ofMask?_mask (format : DateFormat) :
    ofMask? format.pattern.mask = some format := by
  cases format <;> rfl

theorem DateFormat.mask_injective {a b : DateFormat} (h : a.pattern.mask = b.pattern.mask) :
    a = b := by
  have hread := ofMask?_mask a
  rw [h, ofMask?_mask] at hread
  exact (Option.some.inj hread).symm

/-- What a field of a known type is compared with is known by its text, and so is the projection by
the way it is written. -/
theorem Scalar.IsOperand.eq_of_literal {textual : Bool} {t : FieldType} {p q : Projection}
    {s x : Scalar} (hs : s.IsOperand textual t p) (hx : x.IsOperand textual t q)
    (hfunction : p.function = q.function) (hmask : p.mask = q.mask)
    (hliteral : s.literal = x.literal) : p = q ∧ s = x := by
  have htext : ∀ {a b : String}, (Scalar.text a).literal = (Scalar.text b).literal → a = b := by
    intro a b h
    exact String.toList_inj.1 (Literal.quoted.inj h)
  have hmode : ∀ {a b : CaseMode}, (Projection.text a).function = (Projection.text b).function →
      a = b := by
    intro a b h
    cases a <;> cases b <;> first | rfl | exact absurd h (by decide)
  cases hs with
  | string mode a =>
    cases hx with
    | string mode' b => rw [hmode hfunction, htext hliteral]; exact ⟨rfl, rfl⟩
  | char mode a =>
    cases hx with
    | char mode' b => rw [hmode hfunction, htext hliteral]; exact ⟨rfl, rfl⟩
  | digits width a h =>
    cases hx with
    | digits _ b => exact ⟨rfl, by rw [htext hliteral]⟩
    | number h' => exact absurd (h.symm.trans h') (by decide)
  | number h hn =>
    cases hx with
    | digits _ _ h' => exact absurd (h'.symm.trans h) (by decide)
    | number _ hn' =>
      have hrepr := (Width.representation_of_coerce? hn).trans
        (Width.representation_of_coerce? hn').symm
      rw [Number.eq_of_text hrepr (String.toList_inj.1 (Literal.bare.inj hliteral))]
      exact ⟨rfl, rfl⟩
  | boolean a =>
    cases hx with
    | boolean b =>
      refine ⟨rfl, ?_⟩
      cases a <;> cases b <;> first | rfl | exact absurd (Literal.bare.inj hliteral) (by decide)
  | dateTime format a =>
    cases hx with
    | dateTime format' b =>
      rw [DateFormat.mask_injective hmask, htext hliteral]
      exact ⟨rfl, rfl⟩
  | date format a =>
    cases hx with
    | date format' b =>
      rw [DateFormat.mask_injective hmask, htext hliteral]
      exact ⟨rfl, rfl⟩
  | enum _ hm =>
    cases hx with
    | enum _ hm' => rw [String.toList_inj.1 (Literal.quoted.inj hliteral)]; exact ⟨rfl, rfl⟩

/-- A column is known by its name. -/
theorem Column.Denotes.eq_of_name {schema : Schema} {c d : Column} {f g : Field}
    (hc : c.Denotes schema f) (hd : d.Denotes schema g) (h : c.name = d.name) : c = d ∧ f = g := by
  have hresolve := hc.resolve?_eq
  rw [← hc.name_eq, h, hd.name_eq, hd.resolve?_eq] at hresolve
  obtain ⟨hindex, rfl⟩ := Prod.mk.inj (Option.some.inj hresolve)
  have hmany := hc.many_eq.trans hd.many_eq.symm
  have hsame : c = d :=
    calc c = ⟨c.index, c.name, c.many⟩ := rfl
      _ = ⟨d.index, d.name, d.many⟩ := by rw [hindex, h, hmany]
      _ = d := rfl
  exact ⟨hsame, rfl⟩

theorem Column.subject_inj {c d : Column} {p q : Projection} (h : c.subject p = d.subject q) :
    c.name = d.name ∧ p.function = q.function ∧ p.mask = q.mask := by
  obtain ⟨hfunction, hname, -, hmask⟩ := Subject.mk.inj h
  exact ⟨String.toList_inj.1 hname, String.toList_inj.1 hfunction, String.toList_inj.1 hmask⟩

namespace Expression

open ClauseScan

variable {schema : Schema} {d e : Expression}

/-- Clauses that are no groups and say the same are the same. -/
theorem IsPlanned.eq_of_phrase (hd : IsPlanned schema d) (he : IsPlanned schema e) {found : Phrase}
    (hfound : d.phrase? = some found) (h : d.phrase? = e.phrase?) : d = e := by
  cases hd with
  | literal a =>
    cases he with
    | literal b =>
      cases a <;> cases b <;> first | rfl | cases h
    | _ => cases h
  | isNull hc =>
    cases he with
    | isNull hc' =>
      obtain ⟨hsubject, -⟩ := Phrase.nullTest.inj (Option.some.inj h)
      rw [(hc.eq_of_name hc' (Column.subject_inj hsubject).1).1]
    | isNotNull => exact absurd (Phrase.nullTest.inj (Option.some.inj h)).2 (by decide)
    | _ => cases h
  | isNotNull hc =>
    cases he with
    | isNotNull hc' =>
      obtain ⟨hsubject, -⟩ := Phrase.nullTest.inj (Option.some.inj h)
      rw [(hc.eq_of_name hc' (Column.subject_inj hsubject).1).1]
    | isNull => exact absurd (Phrase.nullTest.inj (Option.some.inj h)).2 (by decide)
    | _ => cases h
  | compare hc hs =>
    cases he with
    | compare hc' hs' =>
      obtain ⟨hsubject, rfl, rfl, hliteral⟩ := Phrase.comparison.inj (Option.some.inj h)
      obtain ⟨hname, hfunction, hmask⟩ := Column.subject_inj hsubject
      obtain ⟨rfl, rfl⟩ := hc.eq_of_name hc' hname
      obtain ⟨rfl, rfl⟩ := hs.eq_of_literal hs' hfunction hmask hliteral
      rfl
    | _ => cases h
  | between negated hc hlow hhigh =>
    cases he with
    | between negated' hc' hlow' hhigh' =>
      obtain ⟨hsubject, rfl, hfirst, hsecond⟩ := Phrase.range.inj (Option.some.inj h)
      obtain ⟨hname, hfunction, hmask⟩ := Column.subject_inj hsubject
      obtain ⟨rfl, rfl⟩ := hc.eq_of_name hc' hname
      obtain ⟨rfl, rfl⟩ := hlow.eq_of_literal hlow' hfunction hmask hfirst
      obtain ⟨-, rfl⟩ := hhigh.eq_of_literal hhigh' hfunction hmask hsecond
      rfl
    | _ => cases h
  | conjunction | disjunction => cases hfound

def group : Connective → List Expression → Expression
  | .and, children => conjunction children
  | .or, children => disjunction children

theorem IsPlanned.exists_group (h : IsPlanned schema e) (hnone : e.phrase? = none) :
    ∃ c es, e = group c es ∧ 2 ≤ es.length ∧ ∀ x ∈ es, IsPlanned schema x := by
  cases h with
  | literal | isNull | isNotNull | compare | between => cases hnone
  | conjunction hlen h => exact ⟨.and, _, rfl, hlen, h⟩
  | disjunction hlen h => exact ⟨.or, _, rfl, hlen, h⟩

/-- The children of a group behind its first one, and the end of the group. -/
def followers (c : Connective) (rest : List Char) : List Expression → List Char
  | [] => ")".toList ++ rest
  | e :: es => (" " ++ c.keyword ++ " ").toList ++ (e.display.toList ++ followers c rest es)

theorem endsClause_followers (c : Connective) (rest : List Char) (es : List Expression) :
    EndsClause (followers c rest es) := by
  cases es with
  | nil => exact .close rest
  | cons e es => exact .keyword c _

theorem toList_displays (c : Connective) (e : Expression) (es : List Expression)
    (rest : List Char) :
    (String.intercalate (" " ++ c.keyword ++ " ") (displays (e :: es))).toList ++
      (")".toList ++ rest) = e.display.toList ++ followers c rest es := by
  induction es generalizing e with
  | nil => rw [displays, displays, String.intercalate_singleton, followers]
  | cons f es ih =>
    rw [displays, displays, String.intercalate_cons_cons, ← displays, followers, ← ih]
    simp only [String.toList_append, List.append_assoc]

theorem display_group (c : Connective) (es : List Expression) :
    (group c es).display =
      "(" ++ String.intercalate (" " ++ c.keyword ++ " ") (displays es) ++ ")" := by
  cases c <;> rfl

theorem toList_display_group (c : Connective) (e : Expression) (es : List Expression)
    (rest : List Char) :
    (group c (e :: es)).display.toList ++ rest =
      "(".toList ++ (e.display.toList ++ followers c rest es) := by
  rw [display_group, ← toList_displays]
  simp only [String.toList_append, List.append_assoc]

/-- Behind an opening parenthesis there is no first word. -/
theorem phrase_display_group (c : Connective) (es : List Expression) (rest : List Char) :
    phrase ((group c es).display.toList ++ rest) = none := by
  rw [display_group]
  simp only [String.toList_append, List.append_assoc]
  rfl

/-- No other planned expression has the same text, whatever follows the two in their groups. -/
def IsOnly (schema : Schema) (d : Expression) : Prop :=
  ∀ e r s, IsPlanned schema e → EndsClause r → EndsClause s →
    d.display.toList ++ r = e.display.toList ++ s → d = e ∧ r = s

section Followers

variable {a b : Connective} {r s : List Char} {ds es : List Expression}

theorem followers_nil_ne_cons : followers a r [] ≠ followers b s (e :: es) := by
  intro h
  have hhead : some ')' = some ' ' := by
    cases b <;> exact congrArg List.head? h
  simp at hhead

theorem connective_eq_of_followers (h : followers a r (d :: ds) = followers b s (e :: es)) :
    a = b := by
  have hsecond := congrArg (fun text => text[1]?) h
  cases a <;> cases b <;> first | rfl | cases hsecond

/-- The children are told apart from left to right, since each ends where its text does. -/
theorem followers_inj (hds : ∀ d ∈ ds, IsOnly schema d) :
    ∀ {es : List Expression}, (∀ e ∈ es, IsPlanned schema e) →
      followers a r ds = followers a s es → ds = es ∧ r = s := by
  induction ds with
  | nil =>
    intro es hes h
    cases es with
    | nil => exact ⟨rfl, List.append_cancel_left h⟩
    | cons e es => exact absurd h followers_nil_ne_cons
  | cons d ds ih =>
    intro es hes h
    cases es with
    | nil => exact absurd h.symm followers_nil_ne_cons
    | cons e es =>
      obtain ⟨rfl, hrest⟩ := hds d List.mem_cons_self e _ _ (hes e List.mem_cons_self)
        (endsClause_followers a r ds) (endsClause_followers a s es) (List.append_cancel_left h)
      obtain ⟨rfl, rfl⟩ := ih (fun x hx => hds x (List.mem_cons_of_mem _ hx))
        (fun x hx => hes x (List.mem_cons_of_mem _ hx)) hrest
      exact ⟨rfl, rfl⟩

end Followers

variable (hnames : ∀ f ∈ schema.fields, IsWord f.name.toList)

include hnames

theorem IsPlanned.isOnly_of_phrase (h : IsPlanned schema d) {found : Phrase}
    (hfound : d.phrase? = some found) : IsOnly schema d := by
  intro e r s he hr hs heq
  have hread := phrase_display hnames h hfound hr
  rw [heq] at hread
  cases hphrase : e.phrase? with
  | none =>
    obtain ⟨c, es, rfl, -⟩ := he.exists_group hphrase
    rw [phrase_display_group] at hread
    cases hread
  | some x =>
    rw [phrase_display hnames he hphrase hs] at hread
    obtain ⟨rfl, rfl⟩ := Prod.mk.inj (Option.some.inj hread)
    exact ⟨h.eq_of_phrase he hfound (hfound.trans hphrase.symm), rfl⟩

/-- Which connective joins the children is seen behind the first of them. -/
theorem isOnly_group (c : Connective) {ds : List Expression} (hlen : 2 ≤ ds.length)
    (hds : ∀ d ∈ ds, IsOnly schema d) : IsOnly schema (group c ds) := by
  intro e r s he hr hs heq
  cases hphrase : e.phrase? with
  | some x =>
    have hread := phrase_display hnames he hphrase hs
    rw [← heq, phrase_display_group] at hread
    cases hread
  | none =>
    obtain ⟨c', es, rfl, hlen', hes⟩ := he.exists_group hphrase
    match ds, es, hlen, hlen' with
    | d :: d' :: ds, e :: e' :: es, _, _ =>
      rw [toList_display_group, toList_display_group] at heq
      obtain ⟨rfl, hrest⟩ := hds d List.mem_cons_self e _ _ (hes e List.mem_cons_self)
        (endsClause_followers c r _) (endsClause_followers c' s _) (List.append_cancel_left heq)
      obtain rfl := connective_eq_of_followers hrest
      obtain ⟨hothers, rfl⟩ := followers_inj (fun x hx => hds x (List.mem_cons_of_mem _ hx))
        (fun x hx => hes x (List.mem_cons_of_mem _ hx)) hrest
      rw [hothers]
      exact ⟨rfl, rfl⟩

theorem IsPlanned.isOnly (h : IsPlanned schema d) : IsOnly schema d := by
  induction h with
  | literal b => exact (IsPlanned.literal b).isOnly_of_phrase hnames rfl
  | isNull hc => exact (IsPlanned.isNull hc).isOnly_of_phrase hnames rfl
  | isNotNull hc => exact (IsPlanned.isNotNull hc).isOnly_of_phrase hnames rfl
  | compare hc hs hn => exact (IsPlanned.compare hc hs hn).isOnly_of_phrase hnames rfl
  | between negated hc hlow hhigh =>
    exact (IsPlanned.between negated hc hlow hhigh).isOnly_of_phrase hnames rfl
  | conjunction hlen _ ih => exact isOnly_group hnames .and hlen ih
  | disjunction hlen _ ih => exact isOnly_group hnames .or hlen ih

/-- **Planned expressions with one text are the same.** -/
theorem IsPlanned.eq_of_display (hd : IsPlanned schema d) (he : IsPlanned schema e)
    (h : d.display = e.display) : d = e := by
  have htext : d.display.toList ++ [] = e.display.toList ++ [] := by rw [h]
  exact (hd.isOnly hnames e [] [] he .nil .nil htext).1

end Expression

/-- ASCII letters, digits and underscores, and no digit at the start. -/
def isIdentifier (name : String) : Bool :=
  match name.toList with
  | [] => false
  | c :: cs => (c.isAlpha || c == '_') && cs.all fun d => d.isAlphanum || d == '_'

theorem isWord_of_isIdentifier {name : String} (h : isIdentifier name = true) :
    ClauseScan.IsWord name.toList := by
  rw [isIdentifier] at h
  split at h
  · cases h
  · next c cs hname =>
    rw [hname]
    rw [Bool.and_eq_true, List.all_eq_true] at h
    refine ⟨List.cons_ne_nil c cs, ?_⟩
    intro d hd
    rcases List.mem_cons.1 hd with rfl | hd
    · have hfirst := h.1
      rw [Bool.or_eq_true] at hfirst
      rw [ClauseScan.isNameChar, Char.isAlphanum]
      rcases hfirst with hletter | hunderscore
      · rw [hletter, Bool.true_or, Bool.true_or]
      · rw [hunderscore, Bool.or_true]
    · exact h.2 d hd

namespace Search

/-- **The text of a plan determines the filter.** If the fields are named by identifiers, then two
searches whose plans have the same text accept the same rows and select the same records. -/
theorem evaluate_eq_of_display {schema : Schema}
    (hnames : ∀ f ∈ schema.fields, isIdentifier f.name = true) {s t : Search} {d e : Expression}
    (hs : s.plan schema = .ok d) (ht : t.plan schema = .ok e) (h : d.display = e.display) :
    (∀ row, d.evaluate row = e.evaluate row) ∧
      ∀ (α : Type) (row : α → Row) (records : List α),
        s.filter schema row records = t.filter schema row records := by
  have hsame : d = e := by
    apply (Expression.isPlanned_of_plan hs).eq_of_display _ (Expression.isPlanned_of_plan ht) h
    exact fun f hf => isWord_of_isIdentifier (hnames f hf)
  subst hsame
  refine ⟨fun row => rfl, ?_⟩
  intro α row records
  rw [filter_of_plan hs, filter_of_plan ht]

/-- Fields that are named like words of the notation, in a search that says everything once and in
one that spells the fields and the operands differently and has a group to spare. -/
theorem evaluate_eq_of_display_keywords :
    let schema : Schema := ⟨[⟨"NOT", .number .i32⟩, ⟨"lower", .optional .string⟩,
      ⟨"AND", .list (.enum ⟨"Role", ["Owner", "Guest"]⟩)⟩]⟩
    let s := (all.addCondition (.notBetween "NOT" (.number (.int 1)) (.number (.int 9)))).addGroup
      ((any.addCondition (.plain "lower" .equal [.text "it's", .null])).addCondition
        (.notEqual "AND" (.member "Role" "Guest")))
    let t := (all.addCondition (.notBetween "not" (.number (.uint 1)) (.number (.uint 9)))).addGroup
      ((any.addGroup ((all.addCondition (.equal "Lower" (.text "it's"))).addCondition
        (.isNull "LOWER"))).addCondition (.notEqual "And" (.text "guest")))
    ∃ d e, s.plan schema = .ok d ∧ t.plan schema = .ok e ∧
      d.display = "(NOT NOT BETWEEN 1 AND 9 AND ((lower = 'it''s' AND lower IS NULL) OR " ++
        "AND[*] != 'Guest'))" ∧
      d.display = e.display ∧ (∀ row, d.evaluate row = e.evaluate row) ∧
        ∀ (α : Type) (row : α → Row) (records : List α),
          s.filter schema row records = t.filter schema row records := by
  intro schema s t
  obtain ⟨d, e, hs, ht, htext, h⟩ : ∃ d e, s.plan schema = .ok d ∧ t.plan schema = .ok e ∧
      d.display = "(NOT NOT BETWEEN 1 AND 9 AND ((lower = 'it''s' AND lower IS NULL) OR " ++
        "AND[*] != 'Guest'))" ∧ d.display = e.display := by
    simp only [schema, s, t]
    exact ⟨_, _, rfl, rfl, rfl, rfl⟩
  have hnames : ∀ f ∈ schema.fields, isIdentifier f.name = true := by
    simp only [schema]
    decide
  exact ⟨d, e, hs, ht, htext, h, evaluate_eq_of_display hnames hs ht h⟩

end Search

end RecordSearch
