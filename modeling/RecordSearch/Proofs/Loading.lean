import RecordSearch.Wire.Record
import RecordSearch.Proofs.Result

/-!
What the reader of records makes of JSON: under each field a value of the declared type of that
field, and nothing else.

* `Value.HasType`: the values of a declared type;
* `Value.hasType_ofJson`: what is read for a type is a value of it;
* `Row.hasType_value`: a loaded row holds a value of its type for every field of the schema.
-/

namespace RecordSearch

theorem EnumType.mem_of_member? {e : EnumType} {name m : String} (h : e.member? name = some m) :
    m ∈ e.members := by
  rcases Option.or_eq_some_iff.1 h with h | ⟨-, h⟩
  · exact List.mem_of_find?_eq_some h
  · exact List.mem_of_find?_eq_some h

/-- The values of a declared type: null is one of every type, a number has been brought into its
width, and a type without a meaning has all values. -/
inductive Value.HasType : FieldType → Value → Prop where
  | null {t : FieldType} : HasType t .null
  | string (s : String) : HasType .string (.text s)
  | char (s : String) : HasType .char (.text s)
  | number {width : Width} {m n : Number} (h : width.coerce? m = some n) :
      HasType (.number width) (.number n)
  | boolean (b : Bool) : HasType .boolean (.boolean b)
  | dateTime (t : Timestamp) : HasType .dateTime (.instant t)
  | date (t : Timestamp) : HasType .date (.instant t)
  | enum {e : EnumType} {m : String} (h : m ∈ e.members) : HasType (.enum e) (.member e.name m)
  | optional {t : FieldType} {v : Value} (h : HasType t v) : HasType (.optional t) v
  | list {t : FieldType} {items : List Value} (h : ∀ v ∈ items, HasType t v) :
      HasType (.list t) (.list items)
  | other (text : String) (v : Value) : HasType (.other text) v

namespace Value

variable {field : String} {t : FieldType} {v : Value}

theorem hasType_unwrap_iff : HasType t.unwrap v ↔ HasType t v := by
  induction t with
  | optional inner ih =>
    rw [FieldType.unwrap, ih]
    constructor
    · exact .optional
    · rintro (_ | h)
      · exact .null
      · assumption
  | unit | string | char | number | boolean | dateTime | date | enum | list | other => rfl

theorem hasType_ofScalar? {j : Json} (h : ofScalar? t j = some v) : HasType t v := by
  unfold ofScalar? at h
  split at h
  · obtain rfl := Option.some.inj h
    exact .string _
  · obtain rfl := Option.some.inj h
    exact .char _
  · obtain ⟨n, hn, rfl⟩ := Option.map_eq_some_iff.1 h
    obtain ⟨m, -, hm⟩ := Option.bind_eq_some_iff.1 hn
    exact .number hm
  · obtain ⟨n, hn, rfl⟩ := Option.map_eq_some_iff.1 h
    obtain ⟨d, -, hd⟩ := Option.bind_eq_some_iff.1 hn
    exact .number hd
  · obtain rfl := Option.some.inj h
    exact .boolean _
  · obtain ⟨x, -, rfl⟩ := Option.map_eq_some_iff.1 h
    exact .dateTime x
  · obtain ⟨x, -, rfl⟩ := Option.map_eq_some_iff.1 h
    exact .date x
  · obtain ⟨m, hm, rfl⟩ := Option.map_eq_some_iff.1 h
    exact .enum (EnumType.mem_of_member? hm)
  · obtain ⟨i, -, hi⟩ := Option.bind_eq_some_iff.1 h
    obtain ⟨m, hm, rfl⟩ := Option.map_eq_some_iff.1 hi
    exact .enum (List.mem_of_getElem? hm)
  · cases h

mutual

/-- **Loading is sound.** What is read for a type is a value of that type. -/
theorem hasType_ofJson {t : FieldType} {j : Json} {v : Value} (h : ofJson field t j = .ok v) :
    HasType t v := by
  rw [← hasType_unwrap_iff]
  cases j with
  | null =>
    obtain rfl := Except.ok.inj h
    exact .null
  | array items =>
    rw [ofJson] at h
    split at h
    · next element hu =>
      obtain ⟨values, hvalues, rfl⟩ := map_ok_iff.1 h
      rw [hu]
      exact .list (hasType_ofItems hvalues)
    · next text hu =>
      rw [hu]
      exact .other text v
    · cases h
  | bool | number | string | object =>
    simp only [ofJson] at h
    split at h
    · next text hu =>
      rw [hu]
      exact .other text v
    · split at h
      · next hv =>
        obtain rfl := Except.ok.inj h
        exact hasType_ofScalar? hv
      · cases h

theorem hasType_ofItems {t : FieldType} {items : List Json} {values : List Value}
    (h : ofItems field t items = .ok values) : ∀ v ∈ values, HasType t v := by
  cases items with
  | nil =>
    obtain rfl := Except.ok.inj h
    exact fun v hv => absurd hv List.not_mem_nil
  | cons item rest =>
    obtain ⟨first, hfirst, h⟩ := bind_ok_iff.1 h
    obtain ⟨others, hothers, h⟩ := bind_ok_iff.1 h
    obtain rfl := Except.ok.inj h
    exact List.forall_mem_cons.2 ⟨hasType_ofJson hfirst, hasType_ofItems hothers⟩

end

end Value

theorem Schema.getElem?_of_resolve? {s : Schema} {name : String} {index : Nat} {f : Field}
    (h : s.resolve? name = some (index, f)) : s.fields[index]? = some f := by
  obtain ⟨i, -, h⟩ := Option.bind_eq_some_iff.1 h
  obtain ⟨g, hg, h⟩ := Option.bind_eq_some_iff.1 h
  obtain ⟨rfl, rfl⟩ := Prod.mk.inj (Option.some.inj h)
  exact hg

/-- A loaded row has a value of its type for every field. -/
theorem Row.hasType_value {s : Schema} {j : Json} {row : Row} (h : Row.ofJson s j = .ok row)
    {index : Nat} {f : Field} (hf : s.fields[index]? = some f) :
    (Row.value row index).HasType f.type := by
  cases j with
  | object fields =>
    obtain ⟨v, hv, hload⟩ := getElem?_of_mapM h hf
    rw [Row.value, hv]
    exact Value.hasType_ofJson hload
  | null | bool | number | string | array => cases h

end RecordSearch
