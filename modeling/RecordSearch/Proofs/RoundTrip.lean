import RecordSearch.Proofs.Encoding
import RecordSearch.Proofs.NumberText

/-!
What operands come back as from an encoded search. Texts and truth values come back as they are,
numbers as equal ones, and instants and members as their texts.

* `Value.ofOperand_json`: `Value.reread` is what the reader makes of an encoded operand;
* `Search.exists_ofJson_json`: a search over exact operands comes back as an equal one.
-/

namespace RecordSearch

namespace Value

/-- What is written for the value can be read: a list is no operand there, and a floating-point
number need not have digits. -/
def isEncodable : Value → Bool
  | number (.float _) => false
  | list _ => false
  | _ => true

/-- Of these JSON keeps the value, if not the representation of a number. -/
def isExact : Value → Bool
  | instant _ => false
  | member _ _ => false
  | v => v.isEncodable

/-- What an operand under a format comes back as. -/
def reread (format : DateFormat) : Value → Value
  | number n => number ((Number.ofJsonText? n.text).getD n)
  | instant t => text (format.render t)
  | member _ m => text m
  | v => v

variable {format : DateFormat} {v : Value}

theorem isEncodable_of_isExact (h : v.isExact = true) : v.isEncodable = true := by
  cases v <;> first | rfl | exact h

theorem ne_float_of_isEncodable {n : Number} (h : (number n).isEncodable = true) (x : Double) :
    n ≠ .float x := by
  rintro rfl
  cases h

theorem ofOperand_json (field : String) (h : v.isEncodable = true) :
    ofOperand field (v.json format) = .ok (v.reread format) := by
  cases v with
  | number n =>
    have hfloat := ne_float_of_isEncodable h
    obtain ⟨m, hm, -⟩ := Number.exists_ofJsonText hfloat
    have hjson : n.json = .number n.text := by
      cases n with
      | float x => exact absurd rfl (hfloat x)
      | int | uint | decimal => rfl
    rw [json, hjson, ofOperand, hm, reread, hm, Option.getD_some]
  | list items => cases h
  | null | boolean | text | instant | member => rfl

theorem reread_beq (h : v.isExact = true) : (v.reread format == v) = true := by
  cases v with
  | number n =>
    have hfloat := ne_float_of_isEncodable h
    obtain ⟨m, hm, heq⟩ := Number.exists_ofJsonText hfloat
    rw [reread, hm, Option.getD_some]
    exact heq
  | null => rfl
  | boolean b => exact beq_self_eq_true b
  | text s => exact beq_self_eq_true s
  | instant | member | list => cases h

end Value

theorem Condition.mapOperands_beq {f : Value → Value} {c : Condition}
    (h : ∀ v ∈ c.values, (f v == v) = true) : (c.mapOperands f == c) = true := by
  have hvalues : ∀ vs : List Value, (∀ v ∈ vs, (f v == v) = true) → (vs.map f == vs) = true := by
    intro vs
    induction vs with
    | nil => intro; rfl
    | cons v rest ih =>
      intro h
      rw [List.map_cons, List.cons_beq_cons, h v List.mem_cons_self,
        ih fun w hw => h w (List.mem_cons_of_mem _ hw)]
      rfl
  change (c.field == c.field && c.operation == c.operation && c.values.map f == c.values &&
    c.case == c.case && c.format == c.format) = true
  simp [hvalues c.values h]

namespace Node

variable {g : Condition → Condition}

mutual

theorem same_mapConditions : ∀ n : Node, (∀ c ∈ leaves n, (g c == c) = true) →
    same (mapConditions g n) n = true
  | condition c, h => forall_leaves_condition.1 h
  | group connective children, h => by
    rw [mapConditions, same, sameChildren_mapChildren children h, beq_self_eq_true, Bool.and_self]

theorem sameChildren_mapChildren : ∀ ns : List Node, (∀ c ∈ leavesOf ns, (g c == c) = true) →
    sameChildren (mapChildren g ns) ns = true
  | [], _ => rfl
  | child :: rest, h => by
    obtain ⟨hfirst, hrest⟩ := forall_leavesOf_cons.1 h
    rw [mapChildren, sameChildren, same_mapConditions child hfirst,
      sameChildren_mapChildren rest hrest, Bool.and_self]

end

end Node

theorem Search.mapConditions_beq {s : Search} {g : Condition → Condition}
    (h : ∀ c ∈ s.leaves, (g c == c) = true) : (s.mapConditions g == s) = true := by
  have hroot : Node.same (s.mapConditions g).root s.root = true := Node.same_mapConditions s.root h
  have hformat : ((s.mapConditions g).format == s.format) = true := beq_self_eq_true s.format
  change (Node.same (s.mapConditions g).root s.root &&
    (s.mapConditions g).format == s.format) = true
  rw [hroot, hformat, Bool.and_self]

/-- A condition of a search as it comes back from the encoded search. -/
def Condition.reread (defaultFormat : DateFormat) (c : Condition) : Condition :=
  c.mapOperands (Value.reread (c.format.getD defaultFormat))

/-- Only the operands of a search change on the way through JSON. -/
theorem Search.ofJson_json_of_isEncodable {s : Search} (ha : ∀ c ∈ s.leaves, c.HasArity)
    (hv : ∀ c ∈ s.leaves, ∀ v ∈ c.values, v.isEncodable = true) :
    ofJson s.json = .ok (s.mapConditions (Condition.reread s.format)) := by
  apply ofJson_json
  intro c hc
  exact Condition.ofJson_json (ha c hc) fun v h => Value.ofOperand_json c.field (hv c hc v h)

namespace Search

/-- **An encoded search is read as an equal one.** If the operations of its conditions take the
operands that they have, and the operands are nulls, truth values, texts, integers and decimals,
then the search is read without an error, with the same connectives, order of children, fields,
operations, case modes and formats, and with operands equal by value. -/
theorem exists_ofJson_json {s : Search} (ha : ∀ c ∈ s.leaves, c.HasArity)
    (hv : ∀ c ∈ s.leaves, ∀ v ∈ c.values, v.isExact = true) :
    ∃ t, ofJson s.json = .ok t ∧ (t == s) = true := by
  refine ⟨_, ofJson_json_of_isEncodable ha fun c hc v h =>
    Value.isEncodable_of_isExact (hv c hc v h), ?_⟩
  apply mapConditions_beq
  intro c hc
  exact Condition.mapOperands_beq fun v h => Value.reread_beq (hv c hc v h)

/-- An integer beyond 63 bits and a decimal with a zero at its end, in groups of their own. -/
theorem exists_ofJson_json_nested :
    let price : Decimal := ⟨true, 1250, 2, by decide, by decide⟩
    let owned := (all.addCondition (.isNotNull "Owner")).addCondition
      (.equal "Active" (.boolean true))
    let size : Number := .uint 9223372036854775808
    let sized := (any.addCondition (.between "Size" (.number size) .null)).addCondition
      ((Condition.contains "Name" (.text "den")).withCase .lower)
    let s := ((owned.addGroup (sized.addGroup any)).addCondition
      (.greaterThan "Price" (.number (.decimal price)))).addCondition
        ((Condition.lessThan "Id" (.number (.int (-7)))).withFormat .dateDays)
    ((∀ c ∈ s.leaves, c.HasArity) ∧ ∀ c ∈ s.leaves, ∀ v ∈ c.values, v.isExact = true) ∧
      ∃ t, ofJson s.json = .ok t ∧ (t == s) = true :=
  ⟨⟨by decide, by decide⟩, exists_ofJson_json (by decide) (by decide)⟩

end Search

end RecordSearch
