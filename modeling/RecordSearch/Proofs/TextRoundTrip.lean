import RecordSearch.Proofs.JsonText
import RecordSearch.Proofs.RoundTrip

/-!
Searches on their way through text. The text of a search is read back as an equal search as long as
no more than 63 groups and conditions lie within each other; the reader does not go deeper, and the
writer does.

* `Search.isNormal_json`: what is written is as the reader makes it;
* `Node.nesting_json`: how deep it nests;
* `Search.ofText_text`: what a text is read as;
* `Search.ofText_text_of_isExact`: searches that come back, and searches that do not.
-/

namespace RecordSearch

section Numerals

theorem Digits.eq_zero_of_head?_ofNat {n : Nat} (h : (ofNat n).head? = some '0') : n = 0 := by
  induction n using Nat.strongRecOn with
  | ind n ih =>
    rcases Nat.lt_or_ge n 10 with hn | hn
    · have hdigit : ∀ n < 10, Nat.digitChar n = '0' → n = 0 := by decide
      rw [ofNat, Nat.toDigits_of_lt_base hn] at h
      exact hdigit n hn (Option.some.inj h)
    · have hsplit : ofNat n = ofNat (n / 10) ++ ofNat (n % 10) := by
        rw [ofNat, ofNat, ofNat, Nat.toDigits_append_toDigits (by decide) (by omega) (by omega),
          Nat.div_add_mod]
      rw [hsplit, List.head?_append_of_ne_nil _ (ofNat_ne_nil _)] at h
      have := ih (n / 10) (by omega) h
      omega

theorem Digits.ofNat_of_head? {n : Nat} (h : (ofNat n).head? = some '0') : ofNat n = ['0'] := by
  rw [eq_zero_of_head?_ofNat h]
  rfl

theorem Json.isNumeral_ofNat (negative : Bool) (n : Nat) :
    IsNumeral (String.ofList (signChars negative ++ Digits.ofNat n)) := by
  refine ⟨negative, ⟨Digits.ofNat n, [], Digits.ofNat_ne_nil n,
    fun _ => Digits.isDigit_of_mem_ofNat, fun _ h => absurd h List.not_mem_nil⟩,
    Digits.ofNat_of_head?, ?_⟩
  rw [Positional.chars, if_pos rfl, List.append_nil]

theorem Json.isNumeral_intText (n : Int) : IsNumeral (Digits.intText n) := by
  rw [Digits.intText, Digits.ofInt]
  split
  · exact isNumeral_ofNat true n.natAbs
  · exact isNumeral_ofNat false n.natAbs

theorem Json.isNumeral_natText (n : Nat) : IsNumeral (Digits.natText n) := isNumeral_ofNat false n

/-- Zeros are put in front of the digits of a decimal to have one of them before the point. -/
theorem Decimal.isNumeral_text (d : Decimal) : Json.IsNumeral d.text := by
  refine ⟨d.negative, d.positional, ?_, d.text_eq⟩
  intro hzero
  have hwhole : d.positional.whole = (Digits.padded (d.scale + 1) d.mantissa).take
      ((Digits.padded (d.scale + 1) d.mantissa).length - d.scale) := rfl
  rcases Nat.lt_or_ge (d.scale + 1) (Digits.ofNat d.mantissa).length with hlong | hshort
  · have hpadded : Digits.padded (d.scale + 1) d.mantissa = Digits.ofNat d.mantissa := by
      rw [Digits.padded, Nat.sub_eq_zero_of_le (Nat.le_of_lt hlong), List.replicate_zero,
        List.nil_append]
    have hhead : (Digits.ofNat d.mantissa).head? = some '0' := by
      rw [hwhole, hpadded, List.head?_take, if_neg (by omega)] at hzero
      exact hzero
    rw [Digits.ofNat_of_head? hhead, List.length_singleton] at hlong
    omega
  · have hone : d.positional.whole.length = 1 := by
      rw [hwhole, List.length_take, Digits.padded, List.length_append, List.length_replicate]
      omega
    obtain ⟨c, hc⟩ := List.length_eq_one_iff.1 hone
    rw [hc] at hzero ⊢
    exact congrArg ([·]) (Option.some.inj hzero)

theorem Number.isNumeral_text {n : Number} (h : ∀ x, n ≠ .float x) : Json.IsNumeral n.text := by
  cases n with
  | int v => exact Json.isNumeral_intText v.toInt
  | uint v => exact Json.isNumeral_natText v.toNat
  | decimal d => exact d.isNumeral_text
  | float x => exact absurd rfl (h x)

end Numerals

namespace Node

mutual

/-- How many groups and conditions lie within each other. -/
def height : Node → Nat
  | condition _ => 1
  | group _ children => heightOf children + 1

def heightOf : List Node → Nat
  | [] => 0
  | child :: rest => max (height child) (heightOf rest)

end

end Node

def Search.height (s : Search) : Nat := s.root.height

namespace Json

/-- A field whose name comes after all others is put behind them. -/
theorem insertField_append {name : String} {value : Json} {fields : List (String × Json)}
    (h : ∀ k ∈ fields.map Prod.fst, ¬name < k ∧ name ≠ k) :
    insertField name value fields = fields ++ [(name, value)] := by
  induction fields with
  | nil => rfl
  | cons f rest ih =>
    obtain ⟨k, v⟩ := f
    rw [List.map_cons, List.forall_mem_cons] at h
    rw [insertField, if_neg h.1.1, if_neg h.1.2, ih h.2, List.cons_append]

theorem ofFields_of_names {fields : List (String × Json)} (names : List String)
    (hfields : fields.map Prod.fst = names)
    (h : names.Pairwise fun k name => ¬name < k ∧ name ≠ k) : ofFields fields = object fields := by
  have hinsert : ∀ fields sorted : List (String × Json),
      ((sorted ++ fields).map Prod.fst).Pairwise (fun k name => ¬name < k ∧ name ≠ k) →
        fields.foldl (fun sorted f => insertField f.1 f.2 sorted) sorted = sorted ++ fields := by
    intro fields
    induction fields with
    | nil => exact fun sorted _ => (List.append_nil sorted).symm
    | cons f rest ih =>
      intro sorted hsorted
      have hlast : ∀ k ∈ sorted.map Prod.fst, ¬f.1 < k ∧ f.1 ≠ k := by
        rw [List.map_append, List.pairwise_append] at hsorted
        exact fun k hk => hsorted.2.2 k hk f.1 List.mem_cons_self
      rw [List.append_cons] at hsorted ⊢
      rw [List.foldl_cons, insertField_append hlast]
      exact ih _ hsorted
  exact congrArg object (hinsert fields [] (hfields ▸ h))

theorem isNormal_ofInt (n : Int) : (Json.ofInt n).IsNormal := isNumeral_intText n

end Json

section Nesting

variable {format : DateFormat}

namespace Value

variable {v : Value} {vs : List Value}

theorem isNormal_json (h : v.isEncodable = true) : (v.json format).IsNormal := by
  cases v with
  | number n =>
    have hfloat := ne_float_of_isEncodable h
    cases n with
    | float x => exact absurd rfl (hfloat x)
    | int | uint | decimal => exact Number.isNumeral_text hfloat
  | list items => cases h
  | null | boolean | text | instant | member => exact trivial

theorem nesting_json (h : v.isEncodable = true) : (v.json format).nesting = 0 := by
  cases v with
  | number n =>
    cases n with
    | float x => cases h
    | int | uint | decimal => rfl
  | list items => cases h
  | null | boolean | text | instant | member => rfl

theorem areNormal_jsonItems (h : ∀ v ∈ vs, v.isEncodable = true) :
    Json.AreNormal (jsonItems format vs) := by
  induction vs with
  | nil => exact trivial
  | cons v rest ih =>
    obtain ⟨hv, hrest⟩ := List.forall_mem_cons.1 h
    exact ⟨isNormal_json hv, ih hrest⟩

theorem nestingOf_jsonItems (h : ∀ v ∈ vs, v.isEncodable = true) :
    Json.nestingOf (jsonItems format vs) = 0 := by
  induction vs with
  | nil => rfl
  | cons v rest ih =>
    obtain ⟨hv, hrest⟩ := List.forall_mem_cons.1 h
    rw [jsonItems, Json.nestingOf, nesting_json hv, ih hrest, Nat.max_zero]

end Value

namespace Condition

variable {c : Condition}

theorem isNormal_json (h : ∀ v ∈ c.values, v.isEncodable = true) :
    (c.json format).IsNormal := by
  have hvalues : ∀ f, Json.AreNormal (Value.jsonItems f c.values) :=
    fun _ => Value.areNormal_jsonItems h
  rw [json]
  cases c.format with
  | none =>
    refine ⟨?_, Json.isNormal_ofInt _, trivial, Json.isNormal_ofInt _, hvalues _, trivial⟩
    exact Json.ofFields_of_names ["Case", "Field", "Operation", "Values"] rfl (by decide)
  | some f =>
    refine ⟨?_, Json.isNormal_ofInt _, trivial, Json.isNormal_ofInt _, Json.isNormal_ofInt _,
      hvalues _, trivial⟩
    exact Json.ofFields_of_names ["Case", "Field", "Format", "Operation", "Values"] rfl (by decide)

theorem nesting_json (h : ∀ v ∈ c.values, v.isEncodable = true) :
    (c.json format).nesting = 2 := by
  have hvalues : ∀ f, Json.nestingOf (Value.jsonItems f c.values) = 0 :=
    fun _ => Value.nestingOf_jsonItems h
  rw [json]
  cases c.format with
  | none => simp [Json.nesting, Json.nestingIn, Json.ofInt, hvalues]
  | some f => simp [Json.nesting, Json.nestingIn, Json.ofInt, hvalues]

end Condition

namespace Node

mutual

theorem isNormal_json : ∀ n : Node, (∀ c ∈ leaves n, ∀ v ∈ c.values, v.isEncodable = true) →
    (n.json format).IsNormal
  | condition c, h => Condition.isNormal_json (forall_leaves_condition.1 h)
  | group connective children, h => by
    refine ⟨?_, areNormal_jsonItems children h, Json.isNormal_ofInt _, trivial⟩
    exact Json.ofFields_of_names ["Conditions", "Operator"] rfl (by decide)

theorem areNormal_jsonItems : ∀ ns : List Node,
    (∀ c ∈ leavesOf ns, ∀ v ∈ c.values, v.isEncodable = true) →
      Json.AreNormal (jsonItems format ns)
  | [], _ => trivial
  | child :: rest, h => by
    obtain ⟨hfirst, hrest⟩ := forall_leavesOf_cons.1 h
    exact ⟨isNormal_json child hfirst, areNormal_jsonItems rest hrest⟩

end

mutual

/-- Each level of a search is an object with an array in it. -/
theorem nesting_json : ∀ n : Node, (∀ c ∈ leaves n, ∀ v ∈ c.values, v.isEncodable = true) →
    (n.json format).nesting = 2 * n.height
  | condition c, h => Condition.nesting_json (forall_leaves_condition.1 h)
  | group connective children, h => by
    have hchildren : Json.nestingOf (jsonItems format children) = 2 * heightOf children :=
      nestingOf_jsonItems children h
    simp only [json, height, Json.nesting, Json.nestingIn, Json.ofInt, hchildren]
    omega

theorem nestingOf_jsonItems : ∀ ns : List Node,
    (∀ c ∈ leavesOf ns, ∀ v ∈ c.values, v.isEncodable = true) →
      Json.nestingOf (jsonItems format ns) = 2 * heightOf ns
  | [], _ => rfl
  | child :: rest, h => by
    obtain ⟨hfirst, hrest⟩ := forall_leavesOf_cons.1 h
    rw [jsonItems, Json.nestingOf, heightOf, nesting_json child hfirst,
      nestingOf_jsonItems rest hrest, Nat.mul_max_mul_left]

end

end Node

end Nesting

namespace Search

variable {s : Search}

theorem isNormal_json (h : ∀ c ∈ s.leaves, ∀ v ∈ c.values, v.isEncodable = true) :
    s.json.IsNormal := by
  refine ⟨?_, Node.areNormal_jsonItems s.children h, Json.isNormal_ofInt _, Json.isNormal_ofInt _,
    trivial⟩
  exact Json.ofFields_of_names ["Conditions", "Format", "Operator"] rfl (by decide)

theorem nesting_json (h : ∀ c ∈ s.leaves, ∀ v ∈ c.values, v.isEncodable = true) :
    s.json.nesting = 2 * s.height := by
  have hchildren : Json.nestingOf (Node.jsonItems s.format s.children) = 2 * Node.heightOf s.children :=
    Node.nestingOf_jsonItems s.children h
  simp only [json, height, root, Node.height, Json.nesting, Json.nestingIn, Json.ofInt, hchildren]
  omega

/-- A text is read as it was written, or not at all. -/
theorem ofText_text (ha : ∀ c ∈ s.leaves, c.HasArity)
    (hv : ∀ c ∈ s.leaves, ∀ v ∈ c.values, v.isEncodable = true) :
    ofText s.text = if s.height ≤ 63 then .ok (s.mapConditions (Condition.reread s.format))
      else .error .notJson := by
  rw [ofText, text, Json.read?_text (isNormal_json hv), nesting_json hv]
  have hdeep : 2 * s.height ≤ Json.maxDepth ↔ s.height ≤ 63 := by
    rw [Json.maxDepth]
    omega
  simp only [hdeep]
  split_ifs
  · exact ofJson_json_of_isEncodable ha hv
  · rfl

/-- **A search is read back from its text unless it is too deep.** If the operations of its
conditions take the operands that they have, and the operands are nulls, truth values, texts,
integers and decimals, then a search with at most 63 groups and conditions within each other is read
as an equal one; the text of a deeper one is written all the same, and is no JSON for the reader. -/
theorem ofText_text_of_isExact (ha : ∀ c ∈ s.leaves, c.HasArity)
    (hv : ∀ c ∈ s.leaves, ∀ v ∈ c.values, v.isExact = true) :
    (s.height ≤ 63 → ∃ t, ofText s.text = .ok t ∧ (t == s) = true) ∧
      (63 < s.height → ofText s.text = .error .notJson) := by
  have hread := ofText_text ha fun c hc v h => Value.isEncodable_of_isExact (hv c hc v h)
  constructor
  · intro h
    rw [if_pos h] at hread
    refine ⟨_, hread, ?_⟩
    apply mapConditions_beq
    intro c hc
    exact Condition.mapOperands_beq fun v h => Value.reread_beq (hv c hc v h)
  · intro h
    rw [if_neg (Nat.not_le.2 h)] at hread
    exact hread

/-- The deepest that is read and the next one, over operands of every kind. -/
theorem ofText_text_of_isExact_deepest :
    let price : Decimal := ⟨true, 1250, 2, by decide, by decide⟩
    let size : Number := .uint 9223372036854775808
    let leaf := (any.addCondition (.between "Size" (.number size) .null)).addCondition
      ((Condition.plain "Price" .contains [.number (.decimal price), .text "\"\n",
        .boolean true, .number (.int (-7))]).withFormat .dateDays)
    let s := all.addGroup^[61] leaf
    (∃ t, ofText s.text = .ok t ∧ (t == s) = true) ∧
      ofText (all.addGroup s).text = .error .notJson := by
  intro price size leaf s
  have hread := ofText_text_of_isExact (s := s) (by decide +kernel) (by decide +kernel)
  have hdeeper := ofText_text_of_isExact (s := all.addGroup s) (by decide +kernel) (by decide +kernel)
  exact ⟨hread.1 (by decide +kernel), hdeeper.2 (by decide +kernel)⟩

/-- A condition below 63 groups is written and not read. -/
theorem ofText_text_too_deep :
    let s := all.addGroup^[62] (all.addCondition (.equal "Active" (.boolean true)))
    ((∀ c ∈ s.leaves, c.HasArity) ∧ ∀ c ∈ s.leaves, ∀ v ∈ c.values, v.isExact = true) ∧
      ¬∃ t, ofText s.text = .ok t := by
  intro s
  have hread := ofText_text (s := s) (by decide +kernel) (by decide +kernel)
  rw [if_neg (by decide +kernel)] at hread
  refine ⟨⟨by decide, by decide⟩, ?_⟩
  rintro ⟨t, ht⟩
  cases hread.symm.trans ht

end Search

end RecordSearch
