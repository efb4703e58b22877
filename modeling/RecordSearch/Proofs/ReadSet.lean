import RecordSearch.Clause.Evaluation

/-!
The columns of an expression are what it reads. They are collected from left to right, one for each
position, and nothing else of a row has a say in whether it is accepted.

* `Expression.mentions`: the columns as they stand in the expression;
* `Listing.step` and `Listing.run`: collecting keeps the first mention of each position, in order;
* `Expression.evaluate_congr`: rows that agree in the columns are accepted together;
* `Expression.columns_are_read_set`: all of this for the columns of any expression.
-/

namespace RecordSearch

/-- Where the position is mentioned first, or behind all mentions. -/
def firstMention (mentions : List Column) (index : Nat) : Nat :=
  mentions.findIdx (·.index == index)

section FirstMention

variable {mentions : List Column} {c : Column}

theorem firstMention_lt_iff {index : Nat} :
    firstMention mentions index < mentions.length ↔ ∃ d ∈ mentions, d.index = index := by
  simp only [firstMention, List.findIdx_lt_length, beq_iff_eq]

theorem firstMention_append_of_mem (h : c ∈ mentions) (d : Column) :
    firstMention (mentions ++ [d]) c.index = firstMention mentions c.index := by
  have hlt : firstMention mentions c.index < mentions.length := firstMention_lt_iff.2 ⟨c, h, rfl⟩
  rw [firstMention] at hlt ⊢
  rw [List.findIdx_append, if_pos hlt, firstMention]

theorem firstMention_append_self (h : ∀ d ∈ mentions, d.index ≠ c.index) :
    firstMention (mentions ++ [c]) c.index = mentions.length := by
  have hlt : ¬firstMention mentions c.index < mentions.length := by
    intro hlt
    obtain ⟨d, hd, hindex⟩ := firstMention_lt_iff.1 hlt
    exact h d hd hindex
  rw [firstMention] at hlt ⊢
  rw [List.findIdx_append, if_neg hlt, List.findIdx_cons, beq_self_eq_true, cond_true,
    Nat.zero_add]

end FirstMention

/-- The listed columns are the first mentions of their positions, in the order of these mentions,
and no position is missing. -/
structure Listing (mentions listed : List Column) : Prop where
  inOrder : listed.Pairwise fun c d =>
    firstMention mentions c.index < firstMention mentions d.index
  isFirst : ∀ c ∈ listed, mentions.find? (·.index == c.index) = some c
  isComplete : ∀ c ∈ mentions, ∃ d ∈ listed, d.index = c.index

namespace Listing

variable {mentions listed : List Column} {c : Column}

theorem nil : Listing [] [] :=
  ⟨.nil, fun _ h => absurd h List.not_mem_nil, fun _ h => absurd h List.not_mem_nil⟩

theorem mem_mentions (h : Listing mentions listed) (hc : c ∈ listed) : c ∈ mentions :=
  List.mem_of_find?_eq_some (h.isFirst c hc)

/-- What is listed stays in its order with one more mention behind it. -/
theorem inOrder_append (h : Listing mentions listed) (c : Column) :
    listed.Pairwise fun d d' =>
      firstMention (mentions ++ [c]) d.index < firstMention (mentions ++ [c]) d'.index := by
  refine h.inOrder.imp_of_mem ?_
  intro d d' hd hd' hlt
  rwa [firstMention_append_of_mem (h.mem_mentions hd),
    firstMention_append_of_mem (h.mem_mentions hd')]

theorem isFirst_append (h : Listing mentions listed) (c : Column) :
    ∀ d ∈ listed, (mentions ++ [c]).find? (·.index == d.index) = some d := by
  intro d hd
  rw [List.find?_append, h.isFirst d hd, Option.some_or]

theorem append_listed (h : Listing mentions listed) (hc : ∃ d ∈ listed, d.index = c.index) :
    Listing (mentions ++ [c]) listed := by
  refine ⟨h.inOrder_append c, h.isFirst_append c, ?_⟩
  intro d hd
  rcases List.mem_append.1 hd with hd | hd
  · exact h.isComplete d hd
  · obtain rfl := List.mem_singleton.1 hd
    exact hc

theorem append_new (h : Listing mentions listed) (hc : ¬∃ d ∈ listed, d.index = c.index) :
    Listing (mentions ++ [c]) (listed ++ [c]) := by
  have hnew : ∀ d ∈ mentions, d.index ≠ c.index := by
    intro d hd hindex
    obtain ⟨d', hd', hindex'⟩ := h.isComplete d hd
    exact hc ⟨d', hd', hindex'.trans hindex⟩
  constructor
  · refine List.pairwise_append.2 ⟨h.inOrder_append c, List.pairwise_singleton _ _, ?_⟩
    intro d hd d' hd'
    obtain rfl := List.mem_singleton.1 hd'
    have hmem := h.mem_mentions hd
    rw [firstMention_append_self hnew, firstMention_append_of_mem hmem]
    exact firstMention_lt_iff.2 ⟨d, hmem, rfl⟩
  · intro d hd
    rcases List.mem_append.1 hd with hd | hd
    · exact h.isFirst_append c d hd
    · obtain rfl := List.mem_singleton.1 hd
      have hnone : mentions.find? (·.index == d.index) = none := by
        apply List.find?_eq_none.2
        intro x hx hindex
        exact hnew x hx (beq_iff_eq.1 hindex)
      rw [List.find?_append, hnone, Option.none_or, List.find?_cons, beq_self_eq_true]
  · intro d hd
    rcases List.mem_append.1 hd with hd | hd
    · obtain ⟨d', hd', hindex⟩ := h.isComplete d hd
      exact ⟨d', List.mem_append_left _ hd', hindex⟩
    · exact ⟨d, List.mem_append_right _ hd, rfl⟩

/-- The position of the next column has been listed, or it is mentioned for the first time. -/
theorem step (h : Listing mentions listed) (c : Column) :
    Listing (mentions ++ [c]) (Expression.addColumn listed c) := by
  have hany : listed.any (·.index == c.index) = true ↔ ∃ d ∈ listed, d.index = c.index := by
    simp only [List.any_eq_true, beq_iff_eq]
  rw [Expression.addColumn]
  by_cases hc : ∃ d ∈ listed, d.index = c.index
  · rw [if_pos (hany.2 hc)]
    exact h.append_listed hc
  · rw [if_neg (mt hany.1 hc)]
    exact h.append_new hc

theorem run (h : Listing mentions listed) (more : List Column) :
    Listing (mentions ++ more) (more.foldl Expression.addColumn listed) := by
  induction more generalizing mentions listed with
  | nil =>
    rw [List.append_nil]
    exact h
  | cons c more ih =>
    rw [List.append_cons]
    exact ih (h.step c)

theorem nodup (h : Listing mentions listed) : (listed.map Column.index).Nodup := by
  rw [List.Nodup, List.pairwise_map]
  refine h.inOrder.imp ?_
  intro c d hlt hindex
  rw [hindex] at hlt
  exact Nat.lt_irrefl _ hlt

theorem mem_index_iff (h : Listing mentions listed) {index : Nat} :
    index ∈ listed.map Column.index ↔ index ∈ mentions.map Column.index := by
  simp only [List.mem_map]
  constructor
  · rintro ⟨c, hc, rfl⟩
    exact ⟨c, h.mem_mentions hc, rfl⟩
  · rintro ⟨c, hc, rfl⟩
    exact h.isComplete c hc

theorem eq_nil_iff (h : Listing mentions listed) : listed = [] ↔ mentions = [] := by
  constructor
  · rintro rfl
    apply List.eq_nil_iff_forall_not_mem.2
    intro c hc
    obtain ⟨d, hd, -⟩ := h.isComplete c hc
    exact List.not_mem_nil hd
  · rintro rfl
    apply List.eq_nil_iff_forall_not_mem.2
    intro c hc
    exact List.not_mem_nil (h.mem_mentions hc)

end Listing

namespace Expression

mutual

/-- The columns from left to right, each as often as it stands in the expression. -/
def mentions : Expression → List Column
  | literal _ => []
  | isNull c => [c]
  | isNotNull c => [c]
  | compare c _ _ _ _ => [c]
  | between c _ _ _ _ => [c]
  | conjunction children => mentionsOf children
  | disjunction children => mentionsOf children

def mentionsOf : List Expression → List Column
  | [] => []
  | child :: rest => mentions child ++ mentionsOf rest

end

mutual

theorem collect_eq_foldl (seen : List Column) :
    ∀ e : Expression, collect seen e = (mentions e).foldl addColumn seen
  | literal _ | isNull _ | isNotNull _ | compare .. | between .. => rfl
  | conjunction children => collectAll_eq_foldl seen children
  | disjunction children => collectAll_eq_foldl seen children

theorem collectAll_eq_foldl (seen : List Column) :
    ∀ es : List Expression, collectAll seen es = (mentionsOf es).foldl addColumn seen
  | [] => rfl
  | e :: rest => by
    rw [collectAll, mentionsOf, List.foldl_append, collect_eq_foldl seen e,
      collectAll_eq_foldl _ rest]

end

theorem listing_columns (e : Expression) : Listing e.mentions e.columns := by
  rw [columns, collect_eq_foldl]
  exact Listing.nil.run e.mentions

mutual

theorem isConstant_iff : ∀ e : Expression, e.isConstant = true ↔ e.mentions = []
  | literal _ => by simp [isConstant, mentions]
  | isNull _ | isNotNull _ | compare .. | between .. => by simp [isConstant, mentions]
  | conjunction children => areConstant_iff children
  | disjunction children => areConstant_iff children

theorem areConstant_iff : ∀ es : List Expression, areConstant es = true ↔ mentionsOf es = []
  | [] => by simp [areConstant, mentionsOf]
  | e :: rest => by
    rw [areConstant, Bool.and_eq_true, isConstant_iff e, areConstant_iff rest, mentionsOf,
      List.append_eq_nil_iff]

end

section Agreement

variable {row row' : Row}

mutual

theorem evaluate_eq_of_mentions : ∀ e : Expression,
    (∀ c ∈ e.mentions, Row.value row c.index = Row.value row' c.index) →
      e.evaluate row = e.evaluate row'
  | literal _, _ => rfl
  | isNull c, h | isNotNull c, h | compare c .., h | between c .., h => by
    simp only [evaluate, h c List.mem_cons_self]
  | conjunction children, h => (evaluateAll_eq_of_mentions children h).1
  | disjunction children, h => (evaluateAll_eq_of_mentions children h).2

theorem evaluateAll_eq_of_mentions : ∀ es : List Expression,
    (∀ c ∈ mentionsOf es, Row.value row c.index = Row.value row' c.index) →
      evaluateAll row es = evaluateAll row' es ∧ evaluateAny row es = evaluateAny row' es
  | [], _ => ⟨rfl, rfl⟩
  | e :: rest, h => by
    have hfirst : e.evaluate row = e.evaluate row' :=
      evaluate_eq_of_mentions e fun c hc => h c (List.mem_append_left _ hc)
    obtain ⟨hall, hany⟩ := evaluateAll_eq_of_mentions rest fun c hc =>
      h c (List.mem_append_right _ hc)
    simp only [evaluateAll, evaluateAny, hfirst, hall, hany, and_self]

end

theorem evaluate_congr {e : Expression}
    (h : ∀ c ∈ e.columns, Row.value row c.index = Row.value row' c.index) :
    e.evaluate row = e.evaluate row' := by
  apply evaluate_eq_of_mentions
  intro c hc
  obtain ⟨d, hd, hindex⟩ := e.listing_columns.isComplete c hc
  rw [← hindex]
  exact h d hd

end Agreement

/-- **The columns are what an expression reads.** They have pairwise different positions, which are
those that are mentioned anywhere in it; each is the first mention of its position, and they stand
in the order of these mentions. Rows that have the same values there, if only by ending before them,
are accepted together. An expression is constant just if it has no column, and then it accepts all
rows or none. -/
theorem columns_are_read_set (e : Expression) :
    (e.columns.map Column.index).Nodup ∧
      (∀ index, index ∈ e.columns.map Column.index ↔ index ∈ e.mentions.map Column.index) ∧
      (∀ c ∈ e.columns, e.mentions.find? (·.index == c.index) = some c) ∧
      (e.columns.Pairwise fun c d =>
        firstMention e.mentions c.index < firstMention e.mentions d.index) ∧
      (∀ row row' : Row, (∀ c ∈ e.columns, Row.value row c.index = Row.value row' c.index) →
        e.evaluate row = e.evaluate row') ∧
      (e.isConstant = true ↔ e.columns = []) ∧
      (e.isConstant = true → ∃ b, ∀ row : Row, e.evaluate row = b) := by
  have hlisting := e.listing_columns
  have hconstant : e.isConstant = true ↔ e.columns = [] := by
    rw [isConstant_iff, hlisting.eq_nil_iff]
  refine ⟨hlisting.nodup, fun _ => hlisting.mem_index_iff, hlisting.isFirst, hlisting.inOrder,
    fun _ _ => evaluate_congr, hconstant, ?_⟩
  intro h
  refine ⟨e.evaluate [], fun row => evaluate_congr ?_⟩
  rw [hconstant.1 h]
  intro c hc
  exact absurd hc List.not_mem_nil

/-- Two columns of one position with different names, and a row that ends before it. -/
theorem columns_are_read_set_short :
    let e : Expression := disjunction
      [conjunction [isNotNull ⟨2, "Old", false⟩, compare ⟨0, "Name", false⟩ (.text .default) .equal
        (.text "Ada") false], isNull ⟨2, "New", false⟩]
    let row : Row := [.text "Ada"]
    let row' : Row := [.text "Ada", .boolean true, .null]
    e.columns = [⟨2, "Old", false⟩, ⟨0, "Name", false⟩] ∧
      (∀ c ∈ e.columns, Row.value row c.index = Row.value row' c.index) ∧
      e.evaluate row = e.evaluate row' ∧
      (conjunction [literal true, disjunction []]).isConstant = true ∧
      ∃ b, ∀ row : Row, (conjunction [literal true, disjunction []]).evaluate row = b := by
  intro e row row'
  have hcolumns : e.columns = [⟨2, "Old", false⟩, ⟨0, "Name", false⟩] := rfl
  have hagree : ∀ c ∈ e.columns, Row.value row c.index = Row.value row' c.index := by
    rw [hcolumns]
    simp [row, row', Row.value]
  obtain ⟨-, -, -, -, hrows, -, -⟩ := columns_are_read_set e
  obtain ⟨-, -, -, -, -, -, hconstant⟩ :=
    columns_are_read_set (conjunction [literal true, disjunction []])
  exact ⟨hcolumns, hagree, hrows row row' hagree, rfl, hconstant rfl⟩

end Expression

end RecordSearch
