import RecordSearch.Json.Basic
import Mathlib.Data.List.Pairwise

/-!
Fields looked up by name. In an object in which no two names are the same but for case, the first
field of a name is the only one, and the order of fields does not count.

* `Json.isUnambiguous`: such objects, at every depth of a value;
* `Json.find?_rest`, `Json.find?_perm`: looking up in them.
-/

namespace RecordSearch.Json

/-- No two of the fields have one name in different case. -/
def NamesApart (fields : List (String × Json)) : Prop :=
  fields.Pairwise fun f g => Ascii.same f.1 g.1 = false

instance (fields : List (String × Json)) : Decidable (NamesApart fields) :=
  inferInstanceAs (Decidable (fields.Pairwise _))

mutual

/-- In no object, however deep, are there two fields of one name in different case. -/
def isUnambiguous : Json → Bool
  | array items => areUnambiguous items
  | object fields => decide (NamesApart fields) && areUnambiguousIn fields
  | _ => true

def areUnambiguous : List Json → Bool
  | [] => true
  | item :: rest => isUnambiguous item && areUnambiguous rest

def areUnambiguousIn : List (String × Json) → Bool
  | [] => true
  | (_, value) :: rest => isUnambiguous value && areUnambiguousIn rest

end

section Lookup

variable {as bs rest : List (String × Json)} {k name : String} {v : Json}

theorem namesApart_cons :
    NamesApart ((k, v) :: rest) ↔ (∀ f ∈ rest, Ascii.same k f.1 = false) ∧ NamesApart rest :=
  List.pairwise_cons

theorem find?_eq_none (h : ∀ f ∈ rest, Ascii.same f.1 name = false) : find? rest name = none := by
  have hnone : rest.find? (fun f => Ascii.same f.1 name) = none := by
    rw [List.find?_eq_none]
    intro f hf
    exact Bool.eq_false_iff.1 (h f hf)
  rw [find?, hnone, Option.bind_none]

/-- The name of a field is the name of no other. -/
theorem find?_rest (h : NamesApart ((k, v) :: rest)) (hk : Ascii.same k name = true) :
    find? rest name = none := by
  apply find?_eq_none
  intro f hf
  rw [Ascii.same_comm, ← Ascii.same_congr hk]
  exact (namesApart_cons.1 h).1 f hf

theorem find?_of_same (hk : Ascii.same k name = true) (hv : v.isNull = false) :
    find? ((k, v) :: rest) name = some v := by
  rw [find?_cons, if_pos hk, if_neg (Bool.eq_false_iff.1 hv)]

theorem find?_of_not_same (hk : Ascii.same k name = false) :
    find? ((k, v) :: rest) name = find? rest name := by
  rw [find?_cons, if_neg (Bool.eq_false_iff.1 hk)]

theorem NamesApart.perm (h : as.Perm bs) (ha : NamesApart as) : NamesApart bs :=
  (h.pairwise_iff fun hfg => Ascii.same_comm _ _ ▸ hfg).1 ha

/-- Where names are apart, their order does not count. -/
theorem find?_perm (h : as.Perm bs) (ha : NamesApart as) : find? as name = find? bs name := by
  induction h with
  | nil => rfl
  | cons f h ih =>
    obtain ⟨k, v⟩ := f
    rw [find?_cons, find?_cons, ih (namesApart_cons.1 ha).2]
  | swap f g rest =>
    obtain ⟨k, v⟩ := f
    obtain ⟨l, w⟩ := g
    have happart : Ascii.same l k = false := (namesApart_cons.1 ha).1 (k, v) List.mem_cons_self
    rw [find?_cons, find?_cons, find?_cons, find?_cons]
    by_cases hk : Ascii.same k name = true
    · have hl : ¬Ascii.same l name = true := by
        intro hl
        rw [Ascii.same_congr hl, Ascii.same_comm, hk] at happart
        cases happart
      rw [if_pos hk, if_neg hl, if_pos hk]
    · rw [if_neg hk, if_neg hk]
  | trans h _ ih ih' => rw [ih ha, ih' (ha.perm h)]

end Lookup

section Unambiguous

variable {as bs fields : List (String × Json)}

theorem isUnambiguous_object :
    (object fields).isUnambiguous = true ↔ NamesApart fields ∧ areUnambiguousIn fields = true := by
  rw [isUnambiguous, Bool.and_eq_true, decide_eq_true_eq]

theorem isUnambiguous_of_item {before after : List Json} {j : Json}
    (h : areUnambiguous (before ++ j :: after) = true) : j.isUnambiguous = true := by
  induction before with
  | nil =>
    rw [List.nil_append, areUnambiguous, Bool.and_eq_true] at h
    exact h.1
  | cons item before ih =>
    rw [List.cons_append, areUnambiguous, Bool.and_eq_true] at h
    exact ih h.2

/-- An object among the items of an array in the first field. -/
theorem isUnambiguous_of_child {k : String} {before after : List Json}
    {rest : List (String × Json)}
    (h : (object ((k, array (before ++ object fields :: after)) :: rest)).isUnambiguous = true) :
    (object fields).isUnambiguous = true := by
  have hitems := (isUnambiguous_object.1 h).2
  rw [areUnambiguousIn, Bool.and_eq_true, isUnambiguous] at hitems
  exact isUnambiguous_of_item hitems.1

end Unambiguous

end RecordSearch.Json
