import RecordSearch.Proofs.ListFields
import RecordSearch.Proofs.Ranges

/-!
Fields that are enumerations. Members may be declared twice, or in several cases of their letters.
Records choose among them when they are loaded, by name or by index, and operands when they are
bound; both come to the same spelling.

* `EnumType.member?_of_mem`: a declared spelling names itself;
* `EnumType.Stores`: the member that a record stores for its JSON;
* `Condition.bind_enum_ok_iff`: what an operand that names a member is bound to;
* `Condition.enum_field_resolves`: the members of records against those of operands.
-/

namespace RecordSearch

namespace EnumType

variable {e : EnumType} {s m : String}

/-- The exact match goes first, so no other case of the letters can stand in for a member. -/
theorem member?_of_mem (h : m ∈ e.members) : e.member? m = some m := by
  have hexact : e.members.find? (· == m) = some m := by
    cases hf : e.members.find? (· == m) with
    | none => exact absurd (beq_self_eq_true m) (List.find?_eq_none.1 hf m h)
    | some m' =>
      have hm := List.find?_some hf
      simp only [beq_iff_eq] at hm
      rw [hm]
  rw [member?, hexact, Option.some_or]

theorem member?_eq_none_iff : e.member? s = none ↔ ∀ m ∈ e.members, Ascii.same m s = false := by
  constructor
  · intro h m hm
    exact Bool.eq_false_iff.2 (List.find?_eq_none.1 (Option.or_eq_none_iff.1 h).2 m hm)
  · intro h
    cases hs : e.member? s with
    | none => rfl
    | some m =>
      -- An exact match is a match without regard to case as well.
      have hsame : Ascii.same m s = true := by
        rcases Option.or_eq_some_iff.1 hs with hexact | ⟨-, hfold⟩
        · have hm := List.find?_some hexact
          simp only [beq_iff_eq] at hm
          rw [hm]
          exact Ascii.same_refl s
        · have hm := List.find?_some hfold
          exact hm
      cases (h m (mem_of_member? hs)).symm.trans hsame

theorem exists_member?_iff :
    (∃ m, e.member? s = some m) ↔ ∃ m ∈ e.members, Ascii.same m s = true := by
  rw [← Option.ne_none_iff_exists', Ne, member?_eq_none_iff]
  simp

/-- The member that a record stores for its JSON, which is a name or an index. -/
inductive Stores (e : EnumType) : Json → String → Prop where
  | name {s m : String} (h : e.member? s = some m) : Stores e (.string s) m
  | index {t m : String} {n : UInt64} (hn : readUInt64? t = some n)
      (hm : e.members[n.toNat]? = some m) : Stores e (.number t) m

theorem Stores.mem {j : Json} (h : e.Stores j m) : m ∈ e.members := by
  cases h with
  | name h => exact mem_of_member? h
  | index _ hm => exact List.mem_of_getElem? hm

theorem exists_stores_string_iff :
    (∃ m, e.Stores (.string s) m) ↔ ∃ m ∈ e.members, Ascii.same m s = true := by
  rw [← exists_member?_iff]
  constructor
  · rintro ⟨m, ⟨h⟩⟩
    exact ⟨m, h⟩
  · rintro ⟨m, h⟩
    exact ⟨m, .name h⟩

theorem exists_stores_number_iff {t : String} : (∃ m, e.Stores (.number t) m) ↔
    ∃ n, readUInt64? t = some n ∧ n.toNat < e.members.length := by
  constructor
  · rintro ⟨m, _ | ⟨hn, hm⟩⟩
    exact ⟨_, hn, (List.getElem?_eq_some_iff.1 hm).1⟩
  · rintro ⟨n, hn, hlt⟩
    exact ⟨_, .index hn (List.getElem?_eq_getElem hlt)⟩

/-- Operands that spell a member: a text, or a value of the enumeration itself. -/
inductive Spells (e : EnumType) (u : String) : Value → Prop where
  | text : Spells e u (.text u)
  | member : Spells e u (.member e.name u)

theorem Spells.ne_null {u : String} {w : Value} (h : e.Spells u w) : w ≠ .null := by
  cases h <;> simp

/-- The two spellings are looked up alike. -/
theorem Spells.operand?_eq {u : String} {w : Value} (h : e.Spells u w) (o : Operation) :
    (Comparator.enumerated e).operand? o w = (e.member? u).map .member := by
  cases h with
  | text => rfl
  | member => exact if_pos rfl

end EnumType

namespace Value

variable {label : String} {t : FieldType} {e : EnumType} {j : Json} {v : Value}

theorem ofScalar?_enum_iff :
    ofScalar? (.enum e) j = some v ↔ ∃ m, e.Stores j m ∧ .member e.name m = v := by
  constructor
  · intro h
    cases j with
    | string s =>
      obtain ⟨m, hm, rfl⟩ := Option.map_eq_some_iff.1 h
      exact ⟨m, .name hm, rfl⟩
    | number t =>
      obtain ⟨n, hn, h⟩ := Option.bind_eq_some_iff.1 h
      obtain ⟨m, hm, rfl⟩ := Option.map_eq_some_iff.1 h
      exact ⟨m, .index hn hm, rfl⟩
    | null | bool | array | object => cases h
  · rintro ⟨m, hm | ⟨hn, hm⟩, rfl⟩
    · simp only [ofScalar?, hm, Option.map_some]
    · simp only [ofScalar?, hn, Option.bind_some, hm, Option.map_some]

theorem ofJson_enum (ht : t.unwrap = .enum e) (hj : j ≠ .null) : ofJson label t j =
    (ofScalar? (.enum e) j).elim (.error (.invalidValue label j)) .ok := by
  cases j with
  | null => exact absurd rfl hj
  | array items =>
    rw [ofJson, ht]
    rfl
  | bool | number | string | object =>
    simp only [ofJson, ht]
    split
    · next hv => rw [hv, Option.elim_some]
    · next hv => rw [hv, Option.elim_none]

theorem ofJson_of_stores {m : String} (ht : t.unwrap = .enum e) (hm : e.Stores j m) :
    ofJson label t j = .ok (.member e.name m) := by
  have hj : j ≠ .null := by
    rintro rfl
    cases hm
  rw [ofJson_enum ht hj, ofScalar?_enum_iff.2 ⟨m, hm, rfl⟩, Option.elim_some]

theorem ofJson_of_not_stores (ht : t.unwrap = .enum e) (hj : j ≠ .null)
    (hm : ¬∃ m, e.Stores j m) : ofJson label t j = .error (.invalidValue label j) := by
  rw [ofJson_enum ht hj]
  cases hv : ofScalar? (.enum e) j with
  | none => rfl
  | some v =>
    obtain ⟨m, hstores, -⟩ := ofScalar?_enum_iff.1 hv
    exact absurd ⟨m, hstores⟩ hm

end Value

/-- Members compare by their very spelling. -/
theorem Scalar.satisfies_equal_member {m m' : String} :
    (member m).satisfies .equal (member m') = true ↔ m = m' := by
  change (compare m m' == .eq) = true ↔ m = m'
  rw [beq_iff_eq, Std.compare_eq_iff_eq]

namespace Condition

variable {c : Condition} {schema : Schema} {defaultFormat : DateFormat} {i : Nat} {field : Field}
  {e : EnumType} {o : Operation} {negated : Bool} {u m : String} {w : Value} {d : Expression}
  {row : Row}

/-- Only an equality and its negation are asked of an enumeration. Its operand is turned into the
member that it names. -/
theorem bind_enum_ok_iff (hfield : schema.resolve? c.field = some (i, field))
    (henum : field.type.unwrap = .enum e) (ho : o.comparison? = some (.equal, negated))
    (hw : e.Spells u w) : (c.asking o [w]).bind schema defaultFormat = .ok d ↔
      ∃ m, e.member? u = some m ∧
        .compare ⟨i, field.name, false⟩ .member .equal (.member m) negated = d := by
  have hkind : field.type.kind false = .ok .enumerated := by
    simp only [FieldType.kind, henum, FieldType.scalarKind?]
  have hsupports : (Comparator.enumerated e).supports o = true := by
    cases o with
    | equal | notEqual => rfl
    | _ => cases ho
  have hbind : (c.asking o [w]).bind schema defaultFormat =
      (Comparator.enumerated e).bind ⟨i, field.name, false⟩ o [w] := by
    rw [bind_asking_of_find (Target.find_of_scalar hfield hkind), henum]
    rfl
  rw [hbind, Comparator.bind_one_ok_iff ho hw.ne_null, hw.operand?_eq]
  simp only [hsupports, true_and, Option.map_eq_some_iff]
  constructor
  · rintro ⟨_, ⟨m, hm, rfl⟩, rfl⟩
    exact ⟨m, hm, rfl⟩
  · rintro ⟨m, hm, rfl⟩
    exact ⟨_, ⟨m, hm, rfl⟩, rfl⟩

theorem exists_bind_enum_iff (hfield : schema.resolve? c.field = some (i, field))
    (henum : field.type.unwrap = .enum e) (ho : o.comparison? = some (.equal, negated))
    (hw : e.Spells u w) : (∃ d, (c.asking o [w]).bind schema defaultFormat = .ok d) ↔
      ∃ m ∈ e.members, Ascii.same m u = true := by
  rw [← EnumType.exists_member?_iff]
  simp only [bind_enum_ok_iff hfield henum ho hw]
  constructor
  · rintro ⟨_, m, hm, -⟩
    exact ⟨m, hm⟩
  · rintro ⟨m, hm⟩
    exact ⟨_, m, hm, rfl⟩

/-- A record passes if the member that it stores is the very one that the operand names. -/
theorem evaluate_enum_eq (hfield : schema.resolve? c.field = some (i, field))
    (henum : field.type.unwrap = .enum e) (ho : o.comparison? = some (.equal, negated))
    (hw : e.Spells u w) (hd : (c.asking o [w]).bind schema defaultFormat = .ok d)
    (hrow : Row.value row i = .member e.name m) :
    d.evaluate row = (decide (e.member? u = some m) != negated) := by
  obtain ⟨m', hm', rfl⟩ := (bind_enum_ok_iff hfield henum ho hw).1 hd
  have htest : (Scalar.member m).satisfies .equal (.member m') = decide (m' = m) := by
    rw [Bool.eq_iff_iff, Scalar.satisfies_equal_member, decide_eq_true_iff, eq_comm]
  simp only [hm', Option.some.injEq, ← htest, Expression.evaluate, hrow]
  rfl

/-- **Records and operands resolve alike.** A record of an enumeration stores a declared member:
the one that its name stands for, or the one at its index, and other JSON does not load. An operand
binds if it spells a member up to the case of ASCII letters. It then equals the records that store
the member it stands for and differs from all others, and every member is found by its own
spelling. -/
theorem enum_field_resolves (hfield : schema.resolve? c.field = some (i, field))
    (henum : field.type.unwrap = .enum e) :
    (∀ label j, j ≠ .null →
      (∃ m ∈ e.members, e.Stores j m ∧
        Value.ofJson label field.type j = .ok (.member e.name m)) ∨
      (¬∃ m, e.Stores j m) ∧
        Value.ofJson label field.type j = .error (.invalidValue label j)) ∧
    (∀ s, (∃ m, e.Stores (.string s) m) ↔ ∃ m ∈ e.members, Ascii.same m s = true) ∧
    (∀ t, (∃ m, e.Stores (.number t) m) ↔
      ∃ n, readUInt64? t = some n ∧ n.toNat < e.members.length) ∧
    ∀ u w, e.Spells u w →
      ((∃ d, (c.asking .equal [w]).bind schema defaultFormat = .ok d) ↔
        ∃ m ∈ e.members, Ascii.same m u = true) ∧
      ((∃ d, (c.asking .notEqual [w]).bind schema defaultFormat = .ok d) ↔
        ∃ m ∈ e.members, Ascii.same m u = true) ∧
      ∀ label j m row, e.Stores j m → Value.ofJson label field.type j = .ok (Row.value row i) →
        (∀ d, (c.asking .equal [w]).bind schema defaultFormat = .ok d →
          (d.evaluate row = true ↔ e.member? u = some m)) ∧
        (∀ d, (c.asking .notEqual [w]).bind schema defaultFormat = .ok d →
          (d.evaluate row = true ↔ e.member? u ≠ some m)) ∧
        (u = m → ∃ d, (c.asking .equal [w]).bind schema defaultFormat = .ok d ∧
          d.evaluate row = true) := by
  refine ⟨?loads, fun s => EnumType.exists_stores_string_iff,
    fun t => EnumType.exists_stores_number_iff, ?asks⟩
  case loads =>
    intro label j hj
    by_cases hstores : ∃ m, e.Stores j m
    · obtain ⟨m, hm⟩ := hstores
      exact .inl ⟨m, hm.mem, hm, Value.ofJson_of_stores henum hm⟩
    · exact .inr ⟨hstores, Value.ofJson_of_not_stores henum hj hstores⟩
  case asks =>
    intro u w hw
    have hbinds : ∀ o negated, o.comparison? = some (.equal, negated) →
        ((∃ d, (c.asking o [w]).bind schema defaultFormat = .ok d) ↔
          ∃ m ∈ e.members, Ascii.same m u = true) :=
      fun o negated ho => exists_bind_enum_iff hfield henum ho hw
    refine ⟨hbinds .equal false rfl, hbinds .notEqual true rfl, ?_⟩
    intro label j m row hm hload
    have hrow : Row.value row i = .member e.name m :=
      Except.ok.inj (hload.symm.trans (Value.ofJson_of_stores henum hm))
    -- Loading and binding have both come to a declared spelling; what is left is to compare the two.
    have hequal : ∀ d, (c.asking .equal [w]).bind schema defaultFormat = .ok d →
        (d.evaluate row = true ↔ e.member? u = some m) := by
      intro d hd
      rw [evaluate_enum_eq hfield henum rfl hw hd hrow, Bool.bne_false, decide_eq_true_iff]
    refine ⟨hequal, ?_, ?_⟩
    · intro d hd
      rw [evaluate_enum_eq hfield henum rfl hw hd hrow, Bool.bne_true, Bool.not_eq_true',
        decide_eq_false_iff_not]
    · rintro rfl
      obtain ⟨d, hd⟩ := (hbinds .equal false rfl).2 ⟨u, hm.mem, Ascii.same_refl u⟩
      exact ⟨d, hd, (hequal d hd).2 (EnumType.member?_of_mem hm.mem)⟩

/-- A member in three cases, one of them declared twice. The record stores the second by its
index. The operand `oPEN` comes to the first, and `OPEN` to the second. -/
theorem enum_field_resolves_cases :
    let e : EnumType := ⟨"State", ["Open", "OPEN", "open", "Open"]⟩
    let s : Schema := ⟨[⟨"Id", .number .i64⟩, ⟨"State", .optional (.enum e)⟩]⟩
    let c : Condition := plain "STATE" .equal []
    let row : Row := [.null, .member "State" "OPEN"]
    (∃ d, (c.asking .equal [.text "OPEN"]).bind s .isoDateTime = .ok d ∧ d.evaluate row = true) ∧
    (∃ d, (c.asking .notEqual [.text "oPEN"]).bind s .isoDateTime = .ok d ∧
      d.evaluate row = true) ∧
    (¬∃ d, (c.asking .equal [.text "shut"]).bind s .isoDateTime = .ok d) ∧
    Value.ofJson "State" (.optional (.enum e)) (.number "4") =
      .error (.invalidValue "State" (.number "4")) := by
  intro e s c row
  have hfield : s.resolve? c.field = some (1, ⟨"State", .optional (.enum e)⟩) := by
    simp only [e, s, c]
    rfl
  have hsecond : e.Stores (.number "1") "OPEN" := .index (n := 1) rfl rfl
  obtain ⟨hloads, -, hindex, hasks⟩ :=
    @enum_field_resolves c s .isoDateTime 1 _ e hfield rfl
  have hbeyond : ¬∃ m, e.Stores (.number "4") m := by
    rw [hindex]
    rintro ⟨n, hn, hlt⟩
    obtain rfl : 4 = n := Option.some.inj hn
    exact absurd hlt (by decide)
  obtain ⟨-, -, hopen⟩ := hasks "OPEN" _ .text
  obtain ⟨-, hbinds, hdiffers⟩ := hasks "oPEN" _ .text
  obtain ⟨hshut, -⟩ := hasks "shut" _ .text
  refine ⟨?_, ?_, ?_, ?_⟩
  · exact (hopen "State" _ _ row hsecond rfl).2.2 rfl
  · obtain ⟨d, hd⟩ := hbinds.2 ⟨"Open", List.mem_cons_self, rfl⟩
    have hother : e.member? "oPEN" ≠ some "OPEN" := by decide
    exact ⟨d, hd, ((hdiffers "State" _ _ row hsecond rfl).2.1 d hd).2 hother⟩
  · rw [hshut]
    decide
  · rcases hloads "State" (.number "4") (by simp) with ⟨m, -, hm, -⟩ | ⟨-, hfails⟩
    · exact absurd ⟨m, hm⟩ hbeyond
    · exact hfails

end Condition

end RecordSearch
