import RecordSearch.Proofs.CodeSpelling
import RecordSearch.Proofs.Lookup
import RecordSearch.Proofs.Result

/-!
What the readers of searches take from the fields of an object. They look up the names that count
for what the object stands for, so objects that hold the same under these names are read alike.

* `Json.AlikeUnder`, `Json.AlikeFor`: values and fields that do the same for a reader;
* `Node.toOption_ofJson`, `Search.toOption_ofJson`: the readers, on fields that are alike.
-/

namespace RecordSearch

namespace Json

/-- Truth values, numbers and strings. -/
def isScalar : Json → Bool
  | bool _ | number _ | string _ => true
  | _ => false

/-- What an object stands for in a search. -/
inductive Role where
  | search
  | group
  | condition
  | neither
deriving DecidableEq

namespace Role

/-- A node is told by its fields. -/
def ofNode (fields : List (String × Json)) : Role :=
  if has fields "conditions" then group
  else if has fields "field" then condition
  else neither

/-- The names that count, be it only to tell what the object is. -/
def names : Role → List String
  | search => ["conditions", "format", "operator"]
  | group => ["conditions", "operator"]
  | condition => ["case", "conditions", "field", "format", "incase", "operation", "values"]
  | neither => ["conditions", "field"]

def hasChildren : Role → Bool
  | search | group => true
  | condition | neither => false

end Role

end Json

/-- The names of fields with a code of the kind. -/
def CodeKind.keys : CodeKind → List String
  | operation => ["operation"]
  | connective => ["operator"]
  | case => ["case", "incase"]
  | format => ["format"]

namespace Json

/-- Values that do the same for a reader who finds them under the name. -/
inductive AlikeUnder (name : String) : Json → Json → Prop
  | refl (v : Json) : AlikeUnder name v v
  | code {kind : CodeKind} {n : Int} {v w : Json} (hname : name ∈ kind.keys)
      (hv : v.Spells kind.names n) (hw : w.Spells kind.names n) : AlikeUnder name v w
  | single {v : Json} (hname : name = "values") (hv : v.isScalar = true) :
      AlikeUnder name v (array [v])
  | child {a b : Json} {before after : List Json} (hname : name = "conditions")
      (h : (Node.ofJson a).toOption = (Node.ofJson b).toOption) :
      AlikeUnder name (array (before ++ a :: after)) (array (before ++ b :: after))

/-- What counts as the case mode of a condition. -/
def findCase (fields : List (String × Json)) : Option Json :=
  (find? fields "case").or (find? fields "incase")

/-- What the fields hold for a reader who takes them for the role. -/
structure AlikeFor (r : Role) (as bs : List (String × Json)) : Prop where
  found : ∀ name ∈ r.names, name ≠ "case" → name ≠ "incase" →
    Option.Rel (AlikeUnder name) (find? as name) (find? bs name)
  case : r = .condition → Option.Rel (AlikeUnder "case") (findCase as) (findCase bs)

section Alike

variable {r : Role} {as bs rest : List (String × Json)} {name k : String} {v w : Json}

theorem AlikeUnder.rel_refl : ∀ o : Option Json, Option.Rel (AlikeUnder name) o o
  | none => .none
  | some v => .some (.refl v)

theorem AlikeFor.of_find? (h : ∀ name ∈ r.names, find? as name = find? bs name) :
    AlikeFor r as bs := by
  constructor
  · intro name hname _ _
    rw [h name hname]
    exact AlikeUnder.rel_refl _
  · rintro rfl
    rw [findCase, findCase, h "case" (by decide), h "incase" (by decide)]
    exact AlikeUnder.rel_refl _

theorem Role.eq_of_same {a b : String} (ha : a ∈ r.names) (hb : b ∈ r.names)
    (h : Ascii.same a b = true) : a = b := by
  have hapart : ∀ a ∈ r.names, ∀ b ∈ r.names, Ascii.same a b = true → a = b := by
    cases r <;> decide +kernel
  exact hapart a ha b hb h

/-- A name that counts is no other name that counts. -/
theorem Role.not_same {other : String} (hname : name ∈ r.names) (hk : Ascii.same k name = true)
    (hother : other ∈ r.names) (hne : other ≠ name) : Ascii.same k other = false := by
  rw [Ascii.same_congr hk, ← Bool.not_eq_true]
  exact fun hsame => hne (Role.eq_of_same hname hother hsame).symm

/-- Under the name of the mode and under its second name a value does the same. -/
theorem AlikeUnder.case_of_incase (h : AlikeUnder "incase" v w) : AlikeUnder "case" v w := by
  cases h with
  | refl => exact .refl v
  | @code kind n _ _ hname hv hw =>
    cases kind with
    | case => exact .code (by decide) hv hw
    | operation | connective | format => exact absurd hname (by decide)
  | single hname => exact absurd hname (by decide)
  | child hname => exact absurd hname (by decide)

/-- One value in the place of another that does the same. -/
theorem AlikeFor.of_value (hname : name ∈ r.names) (hk : Ascii.same k name = true)
    (hv : v.isNull = false) (hw : w.isNull = false) (h : AlikeUnder name v w) :
    AlikeFor r ((k, v) :: rest) ((k, w) :: rest) := by
  have hother : ∀ other ∈ r.names, other ≠ name → Ascii.same k other = false :=
    fun _ => Role.not_same hname hk
  constructor
  · intro other hmem _ _
    by_cases heq : other = name
    · rw [heq, find?_of_same hk hv, find?_of_same hk hw]
      exact .some h
    · rw [find?_of_not_same (hother other hmem heq), find?_of_not_same (hother other hmem heq)]
      exact AlikeUnder.rel_refl _
  · rintro rfl
    rw [findCase, findCase]
    by_cases hcase : name = "case"
    · subst hcase
      rw [find?_of_same hk hv, find?_of_same hk hw]
      exact .some h
    · have hnot := hother "case" (by decide) (Ne.symm hcase)
      rw [find?_of_not_same hnot, find?_of_not_same hnot]
      by_cases hincase : name = "incase"
      · subst hincase
        rw [find?_of_same hk hv, find?_of_same hk hw]
        cases find? rest "case" with
        | none => exact .some h.case_of_incase
        | some u => exact .some (.refl u)
      · have hnot := hother "incase" (by decide) (Ne.symm hincase)
        rw [find?_of_not_same hnot, find?_of_not_same hnot]
        exact AlikeUnder.rel_refl _

theorem Spells.isNull_eq_false {names : List (Int × String)} {n : Int} (h : v.Spells names n) :
    v.isNull = false := by
  cases h <;> rfl

theorem isNull_of_isScalar (h : v.isScalar = true) : v.isNull = false := by
  cases v <;> first | rfl | cases h

end Alike

section Codes

variable {α : Type} {kind : CodeKind} {name : String} {v w : Json} {as bs : List (String × Json)}

theorem AlikeUnder.spells (hname : name ∈ kind.keys) (h : AlikeUnder name v w) :
    v = w ∨ ∃ n, v.Spells kind.names n ∧ w.Spells kind.names n := by
  cases h with
  | refl => exact .inl rfl
  | @code other n _ _ hother hv hw =>
    obtain rfl : other = kind := by
      cases kind <;> cases other <;> first | rfl | simp_all [CodeKind.keys]
    exact .inr ⟨n, hv, hw⟩
  | single hvalues =>
    subst hvalues
    cases kind <;> exact absurd hname (by decide)
  | child hconditions =>
    subst hconditions
    cases kind <;> exact absurd hname (by decide)

/-- A reader of codes that makes the same of all spellings of a code. -/
theorem AlikeUnder.toOption_read {read : Json → Except WireError α} {ofCode? : Int → Option α}
    (hread : ∀ {n : Int} {j : Json}, j.Spells kind.names n → (read j).toOption = ofCode? n)
    (hname : name ∈ kind.keys) (h : AlikeUnder name v w) :
    (read v).toOption = (read w).toOption := by
  rcases h.spells hname with rfl | ⟨n, hv, hw⟩
  · rfl
  · rw [hread hv, hread hw]

theorem toOption_readCodeAt [Inhabited α] {read : Json → Except WireError α}
    {ofCode? : Int → Option α}
    (hread : ∀ {n : Int} {j : Json}, j.Spells kind.names n → (read j).toOption = ofCode? n)
    (hname : name ∈ kind.keys)
    (h : Option.Rel (AlikeUnder name) (find? as name) (find? bs name)) :
    (readCodeAt as name read).toOption = (readCodeAt bs name read).toOption := by
  rw [readCodeAt, readCodeAt]
  generalize find? as name = x, find? bs name = y at h
  cases h with
  | none => rfl
  | some h => exact h.toOption_read hread hname

end Codes

end Json

open Json

section Readers

variable {as bs : List (String × Json)}

namespace Condition

theorem toOption_readValues (field : String)
    (h : Option.Rel (AlikeUnder "values") (find? as "values") (find? bs "values")) :
    (readValues field as).toOption = (readValues field bs).toOption := by
  rw [readValues, readValues]
  generalize find? as "values" = x, find? bs "values" = y at h
  cases h with
  | none => rfl
  | some h =>
    cases h with
    | refl => rfl
    | @code kind n _ _ hname => cases kind <;> exact absurd hname (by decide)
    | single _ hv =>
      rename_i v _
      have hread : [v].mapM (Value.ofOperand field) =
          (Value.ofOperand field v).map fun u => [u] := by
        rw [List.mapM_cons, List.mapM_nil]
        cases Value.ofOperand field v <;> rfl
      simp only [hread]
      cases v with
      | bool | number | string => rfl
      | null | array | object => cases hv
    | child hname => exact absurd hname (by decide)

theorem toOption_readCase (h : Option.Rel (AlikeUnder "case") (findCase as) (findCase bs)) :
    (readCase as).toOption = (readCase bs).toOption := by
  rw [readCase, readCase, ← findCase, ← findCase]
  generalize findCase as = x, findCase bs = y at h
  cases h with
  | none => rfl
  | some h => exact h.toOption_read CaseMode.toOption_ofJson (by decide)

theorem find?_field (h : Option.Rel (AlikeUnder "field") (find? as "field") (find? bs "field")) :
    find? as "field" = find? bs "field" := by
  generalize find? as "field" = x, find? bs "field" = y at h
  cases h with
  | none => rfl
  | some h =>
    cases h with
    | refl => rfl
    | @code kind n _ _ hname => cases kind <;> exact absurd hname (by decide)
    | single hname => exact absurd hname (by decide)
    | child hname => exact absurd hname (by decide)

theorem toOption_ofFields (h : AlikeFor .condition as bs) :
    (ofFields as).toOption = (ofFields bs).toOption := by
  have hfield := find?_field (h.found "field" (by decide) (by decide) (by decide))
  have hoperation : (readCodeAt as "operation" Operation.ofJson).toOption =
      (readCodeAt bs "operation" Operation.ofJson).toOption :=
    toOption_readCodeAt Operation.toOption_ofJson (by decide)
      (h.found "operation" (by decide) (by decide) (by decide))
  have hvalues := fun field => toOption_readValues field
    (h.found "values" (by decide) (by decide) (by decide))
  have hcase := toOption_readCase (h.case rfl)
  have hformat := h.found "format" (by decide) (by decide) (by decide)
  rw [ofFields, ofFields, hfield]
  split
  · next field _ =>
    refine toOption_bind_congr hoperation fun operation => ?_
    refine toOption_bind_congr (hvalues field) fun values => ?_
    refine toOption_bind_congr hcase fun case => ?_
    refine toOption_bind_congr rfl fun c => ?_
    generalize find? as "format" = x, find? bs "format" = y at hformat
    cases hformat with
    | none => rfl
    | some hv =>
      have hread := toOption_map_congr some (hv.toOption_read DateFormat.toOption_ofJson (by decide))
      exact toOption_bind_congr hread fun format => rfl
  · rfl

end Condition

namespace Node

theorem childrenOf_eq (fields : List (String × Json)) :
    childrenOf fields = match find? fields "conditions" with
      | none => .ok []
      | some (.array items) => ofItems items
      | some _ => .error (.malformed .conditions) := by
  induction fields with
  | nil => rfl
  | cons f rest ih =>
    obtain ⟨k, v⟩ := f
    unfold childrenOf
    rw [find?_cons]
    by_cases hk : Ascii.same k "conditions" = true
    · rw [if_pos hk, if_pos hk]
      cases v <;> rfl
    · rw [if_neg hk, if_neg hk, ih]

theorem toOption_ofItems {a b : Json} (h : (ofJson a).toOption = (ofJson b).toOption)
    (before after : List Json) :
    (ofItems (before ++ a :: after)).toOption = (ofItems (before ++ b :: after)).toOption := by
  induction before with
  | nil =>
    rw [List.nil_append, List.nil_append, ofItems, ofItems]
    exact toOption_bind_congr h fun first => rfl
  | cons item before ih =>
    rw [List.cons_append, List.cons_append, ofItems, ofItems]
    exact toOption_bind_congr rfl fun first => toOption_bind_congr ih fun others => rfl

theorem toOption_childrenOf
    (h : Option.Rel (AlikeUnder "conditions") (find? as "conditions") (find? bs "conditions")) :
    (childrenOf as).toOption = (childrenOf bs).toOption := by
  rw [childrenOf_eq, childrenOf_eq]
  generalize find? as "conditions" = x, find? bs "conditions" = y at h
  cases h with
  | none => rfl
  | some h =>
    cases h with
    | refl => rfl
    | @code kind n _ _ hname => cases kind <;> exact absurd hname (by decide)
    | single hname => exact absurd hname (by decide)
    | child _ h => exact toOption_ofItems h _ _

/-- A node is read as the node of fields that hold the same for its reader. -/
theorem toOption_ofJson (h : AlikeFor (.ofNode as) as bs)
    (hconditions : has as "conditions" = has bs "conditions")
    (hfield : has as "conditions" = false → has as "field" = has bs "field") :
    (ofJson (.object as)).toOption = (ofJson (.object bs)).toOption := by
  rw [ofJson, ofJson, ← hconditions]
  rw [Role.ofNode] at h
  by_cases hgroup : has as "conditions" = true
  · rw [if_pos hgroup] at h
    rw [if_pos hgroup, if_pos hgroup]
    have hoperator : (readCodeAt as "operator" Connective.ofJson).toOption =
        (readCodeAt bs "operator" Connective.ofJson).toOption :=
      toOption_readCodeAt Connective.toOption_ofJson (by decide)
        (h.found "operator" (by decide) (by decide) (by decide))
    have hchildren := toOption_childrenOf
      (h.found "conditions" (by decide) (by decide) (by decide))
    exact toOption_bind_congr hoperator fun connective =>
      toOption_bind_congr hchildren fun children => rfl
  · rw [if_neg hgroup] at h
    rw [if_neg hgroup, if_neg hgroup, ← hfield (Bool.eq_false_iff.2 hgroup)]
    by_cases hcondition : has as "field" = true
    · rw [if_pos hcondition] at h
      rw [if_pos hcondition, if_pos hcondition]
      exact toOption_map_congr _ (Condition.toOption_ofFields h)
    · rw [if_neg hcondition, if_neg hcondition]
      rfl

end Node

theorem Search.toOption_ofJson (h : AlikeFor .search as bs) :
    (ofJson (.object as)).toOption = (ofJson (.object bs)).toOption := by
  have hoperator : (readCodeAt as "operator" Connective.ofJson).toOption =
      (readCodeAt bs "operator" Connective.ofJson).toOption :=
    toOption_readCodeAt Connective.toOption_ofJson (by decide)
      (h.found "operator" (by decide) (by decide) (by decide))
  have hchildren := Node.toOption_childrenOf
    (h.found "conditions" (by decide) (by decide) (by decide))
  have hformat : (readCodeAt as "format" DateFormat.ofJson).toOption =
      (readCodeAt bs "format" DateFormat.ofJson).toOption :=
    toOption_readCodeAt DateFormat.toOption_ofJson (by decide)
      (h.found "format" (by decide) (by decide) (by decide))
  rw [ofJson, ofJson]
  exact toOption_bind_congr hoperator fun connective =>
    toOption_bind_congr hchildren fun children => toOption_bind_congr hformat fun format => rfl

end Readers

end RecordSearch

