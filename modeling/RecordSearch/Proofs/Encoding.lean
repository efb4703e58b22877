import RecordSearch.Proofs.Digits
import RecordSearch.Proofs.Result
import RecordSearch.Wire.Search

/-!
Reading an encoded search. The keys that are written are the keys that are asked for, codes are read
as what they stand for, and only operands can come back as something else.

* `Condition.ofJson_json`: a condition whose operands can be read comes back with what they are
  read as;
* `Search.ofJson_json`: so do all conditions of a search, and nothing else changes.
-/

namespace RecordSearch

/-- A condition with other operands. -/
def Condition.mapOperands (f : Value → Value) (c : Condition) : Condition :=
  { c with values := c.values.map f }

namespace Node

mutual

/-- A node with other conditions in the places of its own. -/
def mapConditions (g : Condition → Condition) : Node → Node
  | condition c => condition (g c)
  | group connective children => group connective (mapChildren g children)

def mapChildren (g : Condition → Condition) : List Node → List Node
  | [] => []
  | child :: rest => mapConditions g child :: mapChildren g rest

end

end Node

def Search.mapConditions (g : Condition → Condition) (s : Search) : Search :=
  { s with children := Node.mapChildren g s.children }

section Codes

variable {α : Type} {kind : CodeKind} {ofCode? : Int → Option α} {ofName? : String → Option α}

theorem readCode_ofInt {n : Int} {a : α} (hlow : -2 ^ 63 ≤ n) (hhigh : n < 2 ^ 63)
    (ha : ofCode? n = some a) : readCode kind ofCode? ofName? (Json.ofInt n) = .ok a := by
  simp only [readCode, Json.ofInt, readInt64?_intText hlow hhigh, Option.bind_some,
    Int64.toInt_ofInt_of_le hlow hhigh, ha]

theorem Connective.ofJson_code (c : Connective) : ofJson (Json.ofInt c.code) = .ok c :=
  readCode_ofInt (by cases c <;> decide) (by cases c <;> decide) c.ofCode?_code

theorem CaseMode.ofJson_code (m : CaseMode) : ofJson (Json.ofInt m.code) = .ok m :=
  readCode_ofInt (by cases m <;> decide) (by cases m <;> decide) m.ofCode?_code

theorem DateFormat.ofJson_code (f : DateFormat) : ofJson (Json.ofInt f.code) = .ok f :=
  readCode_ofInt (by cases f <;> decide) (by cases f <;> decide) f.ofCode?_code

theorem Operation.ofJson_code (o : Operation) : ofJson (Json.ofInt o.code) = .ok o := by
  have hlow : -2 ^ 63 ≤ o.code := by cases o <;> decide
  have hhigh : o.code < 2 ^ 63 := by cases o <;> decide
  simp only [ofJson, Json.ofInt, readInt64?_intText hlow hhigh,
    Int64.toInt_ofInt_of_le hlow hhigh, o.ofCode?_code]

end Codes

theorem Value.jsonItems_eq_map (format : DateFormat) (vs : List Value) :
    jsonItems format vs = vs.map (json format) := by
  induction vs with
  | nil => rfl
  | cons v rest ih => rw [jsonItems, List.map_cons, ih]

namespace Condition

/-- What a reader finds in an encoded condition under the names that it asks for. -/
theorem exists_fields_json (c : Condition) (defaultFormat : DateFormat) :
    ∃ fields, c.json defaultFormat = .object fields ∧
      Json.has fields "conditions" = false ∧ Json.has fields "field" = true ∧
      Json.find? fields "field" = some (.string c.field) ∧
      Json.find? fields "operation" = some (Json.ofInt c.operation.code) ∧
      Json.find? fields "values" =
        some (.array (c.values.map (Value.json (c.format.getD defaultFormat)))) ∧
      Json.find? fields "case" = some (Json.ofInt c.case.code) ∧
      Json.find? fields "format" = c.format.map fun f => Json.ofInt f.code := by
  refine ⟨_, rfl, ?_⟩
  rw [Value.jsonItems_eq_map]
  cases c.format with
  | none => simp +decide [Json.has, Json.find?_cons, Json.ofInt, Json.isNull]
  | some f => simp +decide [Json.has, Json.find?_cons, Json.ofInt, Json.isNull]

/-- Operands that are read one by one as `f` of them. -/
theorem ofJson_json {c : Condition} {defaultFormat : DateFormat} {f : Value → Value}
    (ha : c.HasArity) (hv : ∀ v ∈ c.values,
      Value.ofOperand c.field (v.json (c.format.getD defaultFormat)) = .ok (f v)) :
    Node.ofJson (c.json defaultFormat) = .ok (.condition (c.mapOperands f)) := by
  obtain ⟨fields, hfields, hgroup, hcondition, hfield, hoperation, hvalues, hcase, hformat⟩ :=
    c.exists_fields_json defaultFormat
  have hread : readValues c.field fields = .ok (c.values.map f) := by
    simp only [readValues, hvalues]
    exact mapM_map_ok hv
  have hmake : make c.field c.operation (c.values.map f) =
      .ok (plain c.field c.operation (c.values.map f)) := by
    rw [HasArity] at ha
    simp [make, Operation.checkArity, ha, Bind.bind, Except.bind, pure, Except.pure]
  have hfieldsRead : ofFields fields = .ok (c.mapOperands f) := by
    rw [ofFields, hfield]
    simp only [readCodeAt, hoperation, Operation.ofJson_code, hread, readCase, hcase,
      Option.some_or, CaseMode.ofJson_code, hmake, hformat, Bind.bind, Except.bind, mapError_ok]
    cases hf : c.format with
    | none => simp [pure, Except.pure, plain, mapOperands, hf]
    | some g => simp [pure, Except.pure, Except.map, DateFormat.ofJson_code, plain, mapOperands, hf]
  rw [hfields, Node.ofJson, if_neg (by simp [hgroup]), if_pos hcondition, hfieldsRead, Except.map]

end Condition

namespace Node

theorem childrenOf_conditions (items : List Json) (rest : List (String × Json)) :
    childrenOf (("Conditions", .array items) :: rest) = ofItems items := by
  rw [childrenOf, if_pos (by decide)]

mutual

theorem ofJson_json {defaultFormat : DateFormat} {g : Condition → Condition} : ∀ n : Node,
    (∀ c ∈ leaves n, ofJson (c.json defaultFormat) = .ok (condition (g c))) →
    ofJson (n.json defaultFormat) = .ok (n.mapConditions g)
  | condition c, h => forall_leaves_condition.1 h
  | group connective children, h => by
    have hoperator : Json.find? [("Conditions", .array (jsonItems defaultFormat children)),
        ("Operator", Json.ofInt connective.code)] "operator" =
          some (Json.ofInt connective.code) := by
      simp +decide [Json.find?_cons, Json.ofInt, Json.isNull]
    rw [json, ofJson, if_pos (by simp +decide [Json.has])]
    simp only [readCodeAt, hoperator, Connective.ofJson_code, childrenOf_conditions,
      ofItems_jsonItems children h, Bind.bind, Except.bind, pure, Except.pure, mapConditions]

theorem ofItems_jsonItems {defaultFormat : DateFormat} {g : Condition → Condition} :
    ∀ ns : List Node, (∀ c ∈ leavesOf ns, ofJson (c.json defaultFormat) = .ok (condition (g c))) →
      ofItems (jsonItems defaultFormat ns) = .ok (mapChildren g ns)
  | [], _ => rfl
  | child :: rest, h => by
    obtain ⟨hfirst, hrest⟩ := forall_leavesOf_cons.1 h
    rw [jsonItems, ofItems, ofJson_json child hfirst, ofItems_jsonItems rest hrest, mapChildren]
    rfl

end

end Node

/-- **An encoded search is read as it was**, but for what each condition is read as. -/
theorem Search.ofJson_json {s : Search} {g : Condition → Condition}
    (h : ∀ c ∈ s.leaves, Node.ofJson (c.json s.format) = .ok (.condition (g c))) :
    ofJson s.json = .ok (s.mapConditions g) := by
  have hitems := Node.ofItems_jsonItems s.children h
  have hoperator : Json.find? [("Conditions", .array (Node.jsonItems s.format s.children)),
      ("Format", Json.ofInt s.format.code), ("Operator", Json.ofInt s.connective.code)]
      "operator" = some (Json.ofInt s.connective.code) := by
    simp +decide [Json.find?_cons, Json.ofInt, Json.isNull]
  have hformat : Json.find? [("Conditions", .array (Node.jsonItems s.format s.children)),
      ("Format", Json.ofInt s.format.code), ("Operator", Json.ofInt s.connective.code)]
      "format" = some (Json.ofInt s.format.code) := by
    simp +decide [Json.find?_cons, Json.ofInt, Json.isNull]
  rw [json, ofJson]
  simp only [readCodeAt, hoperator, hformat, Connective.ofJson_code, DateFormat.ofJson_code,
    Node.childrenOf_conditions, hitems, Bind.bind, Except.bind, pure, Except.pure, mapConditions]

end RecordSearch
