import RecordSearch.Proofs.ClauseScan
import RecordSearch.Proofs.PlannedExpressions

/-!
A planned clause that is no group is read back from its text, whatever follows it in a group.

* `ClauseScan.phrase_of_connection`: a column with what is connected to it;
* `ClauseScan.phrase_of_call`: the search for a fragment;
* `Expression.phrase_display`: every planned clause.
-/

namespace RecordSearch

/-- What follows a clause: nothing, the end of its group, or the next clause in the group. -/
inductive EndsClause : List Char → Prop where
  | nil : EndsClause []
  | close (rest : List Char) : EndsClause (")".toList ++ rest)
  | keyword (c : Connective) (rest : List Char) :
      EndsClause ((" " ++ c.keyword ++ " ").toList ++ rest)

theorem EndsClause.endsScalar {rest : List Char} (h : EndsClause rest) : EndsScalar rest := by
  cases h with
  | nil =>
    intro c hc
    cases hc
  | close =>
    intro c hc
    exact .inr (Option.some.inj hc).symm
  | keyword connective =>
    intro c hc
    cases connective <;> exact .inl (Option.some.inj hc).symm

namespace Connection

theorem nullTest_mem_all (negated : Bool) : nullTest negated ∈ all := by
  cases negated <;> simp [all]

theorem range_mem_all (negated : Bool) : range negated ∈ all := by
  cases negated <;> simp [all]

/-- A blank comes first. -/
theorem exists_text (c : Connection) : ∃ text, c.text.toList = ' ' :: text := by
  cases c with
  | nullTest negated | range negated => cases negated <;> exact ⟨_, rfl⟩
  | comparison f negated =>
    rw [text, String.toList_append, String.toList_append]
    exact ⟨_, rfl⟩

end Connection

namespace ClauseScan

variable {rest tail : List Char} {c : Column} {p : Projection}

theorem fragment?_eq_none (word : List Char) (hopen : after? "(".toList rest = none)
    (hnegated : ∀ f ∈ fragments, after? (" " ++ f.symbol ++ "(").toList rest = none) :
    fragment? word rest = none := by
  rw [fragment?, List.findSome?_eq_none_iff]
  intro f hf
  rw [hopen, hnegated f hf]
  simp

/-- No connection reads like a search for a fragment. -/
theorem fragment?_connection (word : List Char) (connection : Connection) (tail : List Char) :
    fragment? word (connection.text.toList ++ tail) = none := by
  apply fragment?_eq_none
  · obtain ⟨text, h⟩ := connection.exists_text
    rw [h]
    rfl
  · intro f hf
    simp only [fragments, List.mem_cons, List.not_mem_nil, or_false] at hf
    cases connection with
    | nullTest negated | range negated =>
      rcases hf with rfl | rfl | rfl <;> cases negated <;> rfl
    | comparison g negated =>
      rcases hf with rfl | rfl | rfl <;> cases g <;> cases negated <;> rfl

theorem endsName_connection (connection : Connection) (tail : List Char) :
    EndsName (connection.text.toList ++ tail) := by
  obtain ⟨text, h⟩ := connection.exists_text
  rw [h]
  exact ⟨' ', _, rfl, .inl rfl⟩

/-- A name is at least one character long. -/
def IsWord (cs : List Char) : Prop := cs ≠ [] ∧ ∀ c ∈ cs, isNameChar c = true

/-- The word ends where the rest begins, and the two open no search for a fragment. -/
def Opens (word rest : List Char) : Prop :=
  IsWord word ∧ (∀ d ∈ rest.head?, isNameChar d = false) ∧ fragment? word rest = none

theorem exists_opens_label (hname : IsWord c.name.toList) (connection : Connection)
    (tail : List Char) :
    ∃ word rest, c.label.toList ++ (connection.text.toList ++ tail) = word ++ rest ∧
      Opens word rest := by
  have hstop := not_isNameChar_of_endsName (endsName_connection connection tail)
  rw [Column.label]
  cases c.many with
  | false => exact ⟨_, _, rfl, hname, hstop, fragment?_connection _ connection tail⟩
  | true =>
    rw [if_pos rfl, String.toList_append, List.append_assoc]
    refine ⟨_, _, rfl, hname, ?_, ?_⟩
    · rintro d ⟨⟩
      rfl
    · apply fragment?_eq_none _ rfl
      intro f hf
      simp only [fragments, List.mem_cons, List.not_mem_nil, or_false] at hf
      rcases hf with rfl | rfl | rfl <;> rfl

theorem opens_function {function : String} (h : function ∈ ["lower", "upper", "text", "format"])
    (tail : List Char) : Opens function.toList ("(".toList ++ tail) := by
  simp only [List.mem_cons, List.not_mem_nil, or_false] at h
  refine ⟨?_, ?_, ?_⟩
  · rcases h with rfl | rfl | rfl | rfl <;> exact ⟨by decide, List.all_eq_true.1 rfl⟩
  · rintro d ⟨⟩
    rfl
  · rcases h with rfl | rfl | rfl | rfl <;> rfl

theorem exists_opens_display (hname : IsWord c.name.toList) (connection : Connection)
    (tail : List Char) :
    ∃ word rest, (p.display c.label).toList ++ (connection.text.toList ++ tail) = word ++ rest ∧
      Opens word rest := by
  have hlabel := exists_opens_label hname connection tail
  have hfunction : ∀ function ∈ ["lower", "upper", "text", "format"], ∀ inside : List Char,
      ∃ word rest, function.toList ++ ("(".toList ++ inside) = word ++ rest ∧ Opens word rest :=
    fun function hmem inside => ⟨_, _, rfl, opens_function hmem inside⟩
  cases p with
  | number | boolean | member => exact hlabel
  | text mode =>
    cases mode with
    | default => exact hlabel
    | lower =>
      simp only [Projection.display, String.toList_append, List.append_assoc]
      exact hfunction "lower" (by decide) _
    | upper =>
      simp only [Projection.display, String.toList_append, List.append_assoc]
      exact hfunction "upper" (by decide) _
  | numberText width =>
    simp only [Projection.display, String.toList_append, List.append_assoc]
    exact hfunction "text" (by decide) _
  | dateText format =>
    simp only [Projection.display, String.toList_append, List.append_assoc]
    exact hfunction "format" (by decide) _

theorem phrase_of_connection (hname : IsWord c.name.toList) (connection : Connection)
    {found : Phrase × List Char}
    (hfound : connected (c.subject p) (connection.text.toList ++ tail) = some found) :
    phrase ((p.display c.label).toList ++ (connection.text.toList ++ tail)) = some found := by
  have hsubject := subject_display (p := p) hname.2 (endsName_connection connection tail)
  obtain ⟨word, rest, heq, ⟨hne, hchars⟩, hstop, hfragment⟩ :=
    exists_opens_display (p := p) hname connection tail
  rw [heq] at hsubject ⊢
  obtain ⟨htake, hdrop⟩ := span_append hchars hstop
  rw [phrase]
  simp only [htake, hdrop, if_neg hne, hfragment, hsubject, Option.bind_some, hfound,
    Option.some_or]

theorem phrase_of_call {f : Comparison} (hf : f ∈ fragments) (negated : Bool) (inside : List Char) :
    phrase (((if negated then "NOT " else "") ++ f.symbol ++ "(").toList ++ inside) =
      call f negated inside := by
  simp only [fragments, List.mem_cons, List.not_mem_nil, or_false] at hf
  rcases hf with rfl | rfl | rfl <;> cases negated <;> rfl

theorem phrase_constant (b : Bool) (h : EndsClause rest) :
    phrase ((if b then "TRUE" else "FALSE").toList ++ rest) =
      some (.constant (if b then "TRUE" else "FALSE").toList, rest) := by
  cases h with
  | nil => cases b <;> rfl
  | close => cases b <;> rfl
  | keyword connective => cases b <;> cases connective <;> rfl

theorem call_display {f : Comparison} {negated : Bool} {s : Scalar}
    (hname : ∀ d ∈ c.name.toList, isNameChar d = true) :
    call f negated ((p.display c.label).toList ++ (", ".toList ++ (s.display.toList ++
        (")".toList ++ rest)))) =
      some (.comparison (c.subject p) f negated s.literal, rest) := by
  have hcomma : EndsName (", ".toList ++ (s.display.toList ++ (")".toList ++ rest))) :=
    ⟨',', _, rfl, .inr (.inl rfl)⟩
  have hclose : EndsScalar (")".toList ++ rest) := (EndsClause.close rest).endsScalar
  simp only [call, subject_display hname hcomma, after?_append, literal_display s hclose,
    Option.bind_eq_bind, Option.bind_some]
  rfl

section Connected

variable {s : Subject}

theorem connected_nullTest (negated : Bool) (rest : List Char) :
    connected s ((Connection.nullTest negated).text.toList ++ rest) =
      some (.nullTest s negated, rest) := by
  simp only [connected, connection_append (Connection.nullTest_mem_all negated),
    Option.bind_eq_bind, Option.bind_some]
  rfl

theorem connected_comparison {f : Comparison} {negated : Bool} (x : Scalar)
    (hmem : Connection.comparison f negated ∈ Connection.all) (hrest : EndsScalar rest) :
    connected s ((Connection.comparison f negated).text.toList ++ (x.display.toList ++ rest)) =
      some (.comparison s f negated x.literal, rest) := by
  simp only [connected, connection_append hmem, literal_display x hrest, Option.bind_eq_bind,
    Option.bind_some]
  rfl

theorem connected_range (negated : Bool) (low high : Scalar) (hrest : EndsScalar rest) :
    connected s ((Connection.range negated).text.toList ++ (low.display.toList ++
        (" AND ".toList ++ (high.display.toList ++ rest)))) =
      some (.range s negated low.literal high.literal, rest) := by
  have hand : EndsScalar (" AND ".toList ++ (high.display.toList ++ rest)) := by
    intro d hd
    exact .inl (Option.some.inj hd).symm
  simp only [connected, connection_append (Connection.range_mem_all negated),
    literal_display low hand, after?_append, literal_display high hrest, Option.bind_eq_bind,
    Option.bind_some]
  rfl

end Connected

end ClauseScan

namespace Expression

open ClauseScan

/-- What an expression that is no group says in its text. -/
def phrase? : Expression → Option Phrase
  | literal b => some (.constant (if b then "TRUE" else "FALSE").toList)
  | isNull c => some (.nullTest (c.subject (.text .default)) false)
  | isNotNull c => some (.nullTest (c.subject (.text .default)) true)
  | compare c p comparison operand negated =>
    some (.comparison (c.subject p) comparison negated operand.literal)
  | between c p low high negated => some (.range (c.subject p) negated low.literal high.literal)
  | conjunction _ | disjunction _ => none

theorem displayComparison_of_textual {field operand : String} {f : Comparison} {negated : Bool}
    (h : f.isTextual = true) :
    displayComparison field f operand negated =
      (if negated then "NOT " else "") ++ f.symbol ++ "(" ++ field ++ ", " ++ operand ++ ")" :=
  if_pos h

/-- Only equality has a negation of its own between the operands. -/
theorem displayComparison_of_connection {field operand : String} {f : Comparison} {negated : Bool}
    (h : .comparison f negated ∈ Connection.all) :
    displayComparison field f operand negated =
      field ++ (Connection.comparison f negated).text ++ operand := by
  simp only [Connection.all, List.mem_cons, List.not_mem_nil, or_false, reduceCtorEq, false_or,
    Connection.comparison.injEq] at h
  rcases h with ⟨rfl, rfl⟩ | ⟨rfl, rfl⟩ | ⟨rfl, rfl⟩ | ⟨rfl, rfl⟩ | ⟨rfl, rfl⟩ | ⟨rfl, rfl⟩ <;>
    simp [displayComparison, Connection.text, Comparison.isTextual, Comparison.symbol,
      String.append_assoc]

/-- A planned comparison has one of the connections or looks for a fragment. -/
theorem mem_connections_or_mem_fragments {f : Comparison} {negated : Bool}
    (h : negated = true → f = .equal ∨ f.isTextual = true) :
    .comparison f negated ∈ Connection.all ∨ f ∈ fragments ∧ f.isTextual = true := by
  cases f with
  | contains | startsWith | endsWith => exact .inr ⟨by simp [fragments], rfl⟩
  | equal => exact .inl (by cases negated <;> simp [Connection.all])
  | lessThan | lessThanOrEqual | greaterThan | greaterThanOrEqual =>
    left
    cases negated with
    | false => simp [Connection.all]
    | true => simp [Comparison.isTextual] at h

variable {schema : Schema} {e : Expression} {rest : List Char}

/-- **A planned clause is read back** from its text, if it is no group. -/
theorem phrase_display (hnames : ∀ f ∈ schema.fields, IsWord f.name.toList)
    (h : IsPlanned schema e) {found : Phrase} (hfound : e.phrase? = some found)
    (hrest : EndsClause rest) : phrase (e.display.toList ++ rest) = some (found, rest) := by
  have hword : ∀ {c : Column} {f : Field}, c.Denotes schema f → IsWord c.name.toList := by
    intro c f hc
    rw [hc.name_eq]
    exact hnames f (List.mem_of_getElem? hc.getElem?_eq)
  cases h with
  | literal b =>
    obtain rfl := Option.some.inj hfound
    exact phrase_constant b hrest
  | isNull hc =>
    obtain rfl := Option.some.inj hfound
    rw [display, String.toList_append, List.append_assoc]
    exact phrase_of_connection (p := .text .default) (hword hc) (.nullTest false)
      (connected_nullTest false rest)
  | isNotNull hc =>
    obtain rfl := Option.some.inj hfound
    rw [display, String.toList_append, List.append_assoc]
    exact phrase_of_connection (p := .text .default) (hword hc) (.nullTest true)
      (connected_nullTest true rest)
  | @compare c f p comparison s negated hc hs hn =>
    obtain rfl := Option.some.inj hfound
    rw [display]
    rcases mem_connections_or_mem_fragments hn with hmem | ⟨hmem, htextual⟩
    · rw [displayComparison_of_connection hmem]
      simp only [String.toList_append, List.append_assoc]
      exact phrase_of_connection (hword hc) (.comparison comparison negated)
        (connected_comparison s hmem hrest.endsScalar)
    · rw [displayComparison_of_textual htextual]
      have hcall := phrase_of_call hmem negated
      simp only [String.toList_append, List.append_assoc] at hcall ⊢
      rw [hcall]
      exact call_display (hword hc).2
  | between negated hc hlow hhigh =>
    obtain rfl := Option.some.inj hfound
    simp only [display, String.toList_append, List.append_assoc]
    exact phrase_of_connection (hword hc) (.range negated)
      (connected_range negated _ _ hrest.endsScalar)
  | conjunction | disjunction => cases hfound

end Expression

end RecordSearch
