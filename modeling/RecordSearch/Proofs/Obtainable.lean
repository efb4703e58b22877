import RecordSearch.Proofs.Faults
import RecordSearch.Wire.Search

/-!
The searches that there are ways to make. Whichever way a condition is made, its operation takes as
many operands as it has, so planning never finds too few or too many, and the rules of a field are
always at hand once the field is found.

* `Condition.Obtainable` and `Search.Obtainable`: the ways to make conditions and searches;
* `Condition.Obtainable.hasArity`: each step gives the operation its operands;
* `Condition.bind_error_cases`: the errors that are left;
* `Search.defenses_unreached`: what planning guards against does not come to pass.
-/

namespace RecordSearch

namespace Condition

/-- The constructors that take one operand. -/
def singles : List (String → Value → Condition) :=
  [equal, notEqual, lessThan, lessThanOrEqual, greaterThan, greaterThanOrEqual, contains,
   notContains, startsWith, notStartsWith, endsWith, notEndsWith]

/-- The ways to make a condition. -/
inductive Obtainable : Condition → Prop
  | make {field : String} {operation : Operation} {values : List Value} {c : Condition}
      (h : make field operation values = .ok c) : Obtainable c
  | single {f : String → Value → Condition} (hf : f ∈ singles) (field : String) (value : Value) :
      Obtainable (f field value)
  | between (field : String) (low high : Value) : Obtainable (between field low high)
  | notBetween (field : String) (low high : Value) : Obtainable (notBetween field low high)
  | isNull (field : String) : Obtainable (isNull field)
  | isNotNull (field : String) : Obtainable (isNotNull field)
  | withCase {c : Condition} (h : Obtainable c) (mode : CaseMode) : Obtainable (c.withCase mode)
  | withFormat {c : Condition} (h : Obtainable c) (format : DateFormat) :
      Obtainable (c.withFormat format)
  | ofJson {j : Json} {s : Search} {c : Condition} (h : Search.ofJson j = .ok s)
      (hc : c ∈ s.leaves) : Obtainable c

/-- Exactly two operands for a range, and at least one for any other operation. -/
def HasOperands (c : Condition) : Prop :=
  match c.operation with
  | .between | .notBetween => c.values.length = 2
  | _ => 1 ≤ c.values.length

variable {c : Condition}

theorem hasOperands_iff : c.HasOperands ↔ c.HasArity := by
  rw [HasOperands, HasArity]
  cases c.operation <;>
    simp only [Operation.arity, Arity.accepts, beq_iff_eq, decide_eq_true_eq]

theorem hasArity_of_mem_singles {f : String → Value → Condition} (hf : f ∈ singles)
    (field : String) (value : Value) : (f field value).HasArity := by
  simp only [singles, List.mem_cons, List.not_mem_nil, or_false] at hf
  rcases hf with rfl | rfl | rfl | rfl | rfl | rfl | rfl | rfl | rfl | rfl | rfl | rfl <;> rfl

theorem hasArity_of_ofFields {fields : List (String × Json)} (h : ofFields fields = .ok c) :
    c.HasArity := by
  rw [ofFields] at h
  split at h
  · obtain ⟨operation, -, h⟩ := bind_ok_iff.1 h
    obtain ⟨values, -, h⟩ := bind_ok_iff.1 h
    obtain ⟨mode, -, h⟩ := bind_ok_iff.1 h
    obtain ⟨made, hmade, h⟩ := bind_ok_iff.1 h
    -- Case mode and format are put in later, and do not count.
    have hmake := hasArity_of_make (mapError_ok_iff.1 hmade)
    split at h
    · obtain ⟨format, -, h⟩ := bind_ok_iff.1 h
      obtain rfl := Except.ok.inj h
      exact hmake
    · obtain ⟨format, -, h⟩ := bind_ok_iff.1 h
      obtain rfl := Except.ok.inj h
      exact hmake
  · cases h

end Condition

namespace Node

theorem forall_leavesOf_nil {P : Condition → Prop} : ∀ c ∈ leavesOf [], P c :=
  fun _ hc => absurd hc List.not_mem_nil

mutual

/-- Reading makes each condition with its operands, at whatever depth it is. -/
theorem hasArity_of_ofJson : ∀ (j : Json) {n : Node}, ofJson j = .ok n →
    ∀ c ∈ n.leaves, c.HasArity
  | .object fields, n, h => by
    rw [ofJson] at h
    split at h
    · obtain ⟨connective, -, h⟩ := bind_ok_iff.1 h
      obtain ⟨children, hchildren, h⟩ := bind_ok_iff.1 h
      obtain rfl := Except.ok.inj h
      exact hasArity_of_childrenOf fields hchildren
    · split at h
      · obtain ⟨c, hc, rfl⟩ := map_ok_iff.1 h
        exact forall_leaves_condition.2 (Condition.hasArity_of_ofFields hc)
      · cases h
  | .null, _, h | .bool _, _, h | .number _, _, h | .string _, _, h | .array _, _, h => by cases h

theorem hasArity_of_childrenOf : ∀ (fields : List (String × Json)) {ns : List Node},
    childrenOf fields = .ok ns → ∀ c ∈ leavesOf ns, c.HasArity
  | [], _, h => by
    obtain rfl := Except.ok.inj h
    exact forall_leavesOf_nil
  | (name, value) :: rest, ns, h => by
    unfold childrenOf at h
    split at h
    · cases value with
      | null =>
        obtain rfl := Except.ok.inj h
        exact forall_leavesOf_nil
      | array items => exact hasArity_of_ofItems items h
      | bool | number | string | object => cases h
    · exact hasArity_of_childrenOf rest h

theorem hasArity_of_ofItems : ∀ (items : List Json) {ns : List Node},
    ofItems items = .ok ns → ∀ c ∈ leavesOf ns, c.HasArity
  | [], _, h => by
    obtain rfl := Except.ok.inj h
    exact forall_leavesOf_nil
  | item :: rest, ns, h => by
    rw [ofItems] at h
    obtain ⟨first, hfirst, h⟩ := bind_ok_iff.1 h
    obtain ⟨others, hothers, h⟩ := bind_ok_iff.1 h
    obtain rfl := Except.ok.inj h
    exact forall_leavesOf_cons.2 ⟨hasArity_of_ofJson item hfirst, hasArity_of_ofItems rest hothers⟩

end

end Node

theorem Search.hasArity_of_ofJson {j : Json} {s : Search} (h : ofJson j = .ok s) :
    ∀ c ∈ s.leaves, c.HasArity := by
  cases j with
  | object fields =>
    rw [ofJson] at h
    obtain ⟨connective, -, h⟩ := bind_ok_iff.1 h
    obtain ⟨children, hchildren, h⟩ := bind_ok_iff.1 h
    obtain ⟨format, -, h⟩ := bind_ok_iff.1 h
    obtain rfl := Except.ok.inj h
    exact Node.hasArity_of_childrenOf fields hchildren
  | null | bool | number | string | array => cases h

/-- A change of case mode or format leaves operation and operands as they are. -/
theorem Condition.Obtainable.hasArity {c : Condition} (h : c.Obtainable) : c.HasArity := by
  induction h with
  | make h => exact hasArity_of_make h
  | single hf field value => exact hasArity_of_mem_singles hf field value
  | between | notBetween | isNull | isNotNull => rfl
  | withCase _ _ ih | withFormat _ _ ih => exact ih
  | ofJson h hc => exact Search.hasArity_of_ofJson h _ hc

/-- A node made of conditions that there are ways to make. -/
inductive Node.Obtainable : Node → Prop
  | condition {c : Condition} (h : c.Obtainable) : Obtainable (.condition c)
  | group {connective : Connective} {children : List Node} (h : ∀ n ∈ children, Obtainable n) :
      Obtainable (.group connective children)

namespace Search

/-- The ways to make a search: step by step, from a group, or from JSON. -/
inductive Obtainable : Search → Prop
  | all : Obtainable all
  | any : Obtainable any
  | addCondition {s : Search} {c : Condition} (hs : Obtainable s) (hc : c.Obtainable) :
      Obtainable (s.addCondition c)
  | addGroup {s group : Search} (hs : Obtainable s) (hg : Obtainable group) :
      Obtainable (s.addGroup group)
  | add {s : Search} {n : Node} (hs : Obtainable s) (hn : n.Obtainable) : Obtainable (s.add n)
  | withFormat {s : Search} (hs : Obtainable s) (format : DateFormat) :
      Obtainable (s.withFormat format)
  | ofGroup {connective : Connective} {children : List Node}
      (h : (Node.group connective children).Obtainable) (format : DateFormat) :
      Obtainable ⟨connective, children, format⟩
  | ofJson {j : Json} {s : Search} (h : ofJson j = .ok s) : Obtainable s

end Search

namespace Node

variable {P : Condition → Prop}

theorem forall_leavesOf_iff {ns : List Node} :
    (∀ c ∈ leavesOf ns, P c) ↔ ∀ n ∈ ns, ∀ c ∈ leaves n, P c := by
  induction ns with
  | nil => simp [leavesOf]
  | cons n rest ih => rw [forall_leavesOf_cons, ih, List.forall_mem_cons]

theorem Obtainable.leaves_obtainable {n : Node} (h : n.Obtainable) :
    ∀ c ∈ n.leaves, c.Obtainable := by
  induction h with
  | condition h => exact forall_leaves_condition.2 h
  | group _ ih => exact forall_leavesOf_iff.2 ih

end Node

theorem Search.forall_leaves_add {s : Search} {n : Node} {P : Condition → Prop} :
    (∀ c ∈ (s.add n).leaves, P c) ↔ (∀ c ∈ s.leaves, P c) ∧ ∀ c ∈ n.leaves, P c := by
  simp only [leaves, root, add, Node.leaves, Node.forall_leavesOf_iff, List.mem_append,
    List.mem_singleton, or_imp, forall_and, forall_eq]

/-- Each step brings in conditions that there are ways to make, and no others. -/
theorem Search.Obtainable.leaves_obtainable {s : Search} (h : s.Obtainable) :
    ∀ c ∈ s.leaves, c.Obtainable := by
  induction h with
  | all | any => exact Node.forall_leavesOf_nil
  | addCondition _ hc ih =>
    exact forall_leaves_add.2 ⟨ih, Node.forall_leaves_condition.2 hc⟩
  | addGroup _ _ ih ihg => exact forall_leaves_add.2 ⟨ih, ihg⟩
  | add _ hn ih => exact forall_leaves_add.2 ⟨ih, hn.leaves_obtainable⟩
  | withFormat _ _ ih => exact ih
  | ofGroup h => exact h.leaves_obtainable
  | ofJson h => exact fun c hc => .ofJson h hc

theorem Target.find_eq_error {schema : Schema} {name : String} {err : QueryError}
    (h : find schema name = .error err) :
    err = .unknownField name ∨ ∃ type, err = .unknownType type := by
  rw [find_eq] at h
  split at h
  · exact .inl (Except.error.inj h).symm
  · split at h
    · exact .inr ⟨_, (Except.error.inj h).symm⟩
    · cases h

/-- What is found as a number has a width, and what is found as an enumeration has members. -/
theorem Target.exists_of_find {schema : Schema} {name : String} {t : Target}
    (h : find schema name = .ok t) :
    (t.kind = .number → ∃ width, t.width? = some width) ∧
      (t.kind = .enumerated → ∃ type, t.enum? = some type) ∧
      ∀ mode format, ∃ k?, t.comparator? mode format = .ok k? := by
  have hkind := scalarKind?_type_of_find h
  refine ⟨?number, ?enumerated, fun mode format => ⟨_, comparator?_of_find h⟩⟩
  case number =>
    intro hnumber
    rw [hnumber] at hkind
    rw [width?]
    cases ht : t.type <;> rw [ht] at hkind <;> cases hkind
    exact ⟨_, rfl⟩
  case enumerated =>
    intro henum
    rw [henum] at hkind
    rw [enum?]
    cases ht : t.type <;> rw [ht] at hkind <;> cases hkind
    exact ⟨_, rfl⟩

theorem Comparator.bind_error_cases {k : Comparator} {column : Column} {o : Operation}
    {values : List Value} {err : QueryError} (ha : o.arity.accepts values.length = true)
    (h : k.bind column o values = .error err) :
    err = .unsupportedOperation k.kind o ∨
      ∃ v ∈ values, err = .invalidOperand column.name o v := by
  rcases (bind_eq_error_iff ha).1 h with ⟨-, h⟩ | ⟨-, h⟩
  · exact .inl h.symm
  · obtain ⟨v, hv, -, -, h⟩ := h.exists_mem
    exact .inr ⟨v, hv, h.symm⟩

namespace Condition

variable {c : Condition} {schema : Schema} {defaultFormat : DateFormat} {err : QueryError}

/-- A condition that has its operands fails for its field, its operation or one of the operands. -/
theorem bind_error_cases (ha : c.HasArity) (h : c.bind schema defaultFormat = .error err) :
    Target.find schema c.field = .error err ∨
      (∃ kind, err = .unsupportedOperation kind c.operation) ∨
      ∃ field, ∃ v ∈ c.values, err = .invalidOperand field c.operation v := by
  cases ht : Target.find schema c.field with
  | error d =>
    rw [bind_of_find_error ht] at h
    exact .inl (congrArg _ (Except.error.inj h))
  | ok t =>
    rw [bind_of_find ht] at h
    cases hk : t.type.comparator? c.case (c.format.getD defaultFormat) with
    | none =>
      rw [hk] at h
      exact absurd h (bindNull_ne_error ha err)
    | some k =>
      rw [hk] at h
      rcases Comparator.bind_error_cases ha h with h | h
      · exact .inr (.inl ⟨_, h⟩)
      · exact .inr (.inr ⟨_, h⟩)

/-- A range has the two operands that its rules look at. -/
theorem bind_range (ha : c.HasArity) (hc : c.operation.comparison? = none) :
    ∃ low high, c.values = [low, high] ∧ ∀ (k : Comparator) column,
      k.supports c.operation = true →
      k.bind column c.operation c.values = k.range column c.operation low high := by
  obtain ⟨low, high, hvalues⟩ := Operation.eq_pair_of_accepts hc ha
  refine ⟨low, high, hvalues, ?_⟩
  intro k column hs
  have harity : c.operation.checkArity c.values.length = .ok () := if_pos ha
  unfold Comparator.bind
  rw [harity, hs, hvalues]
  simp only [hc]
  rfl

end Condition

namespace Search

/-- **What planning guards against does not come to pass.** Whatever way a condition is made, a
range has two operands and any other operation at least one, and so in every search. No search
fails in planning for the number of operands or for the code of an operation, nor for a type other
than in looking up the field; the rules of a range get the two operands that they look at; and a
field that is found as a number or as an enumeration has its width or its members. -/
theorem defenses_unreached :
    (∀ c : Condition, c.Obtainable → c.HasOperands ∧
      (c.operation.comparison? = none → ∃ low high, c.values = [low, high] ∧
        ∀ (k : Comparator) column, k.supports c.operation = true →
          k.bind column c.operation c.values = k.range column c.operation low high)) ∧
    (∀ s : Search, s.Obtainable → (∀ c ∈ s.leaves, c.Obtainable) ∧
      ∀ schema err, s.plan schema = .error err →
        (∀ o expected actual, err ≠ .arity o expected actual) ∧
        (∀ code, err ≠ .unknownOperation code) ∧
        ∀ type, err = .unknownType type →
          ∃ c ∈ s.leaves, Target.find schema c.field = .error err) ∧
    ∀ schema name t, Target.find schema name = .ok t →
      (t.kind = .number → ∃ width, t.width? = some width) ∧
        (t.kind = .enumerated → ∃ type, t.enum? = some type) ∧
        ∀ mode format, ∃ k?, t.comparator? mode format = .ok k? := by
  refine ⟨?conditions, ?searches, fun _ _ _ => Target.exists_of_find⟩
  case conditions =>
    intro c hc
    exact ⟨Condition.hasOperands_iff.2 hc.hasArity, Condition.bind_range hc.hasArity⟩
  case searches =>
    intro s hs
    refine ⟨hs.leaves_obtainable, ?_⟩
    intro schema err herr
    obtain ⟨c, hc, hbind⟩ := (plan_eq_error_iff.1 herr).exists_mem
    have harity := (hs.leaves_obtainable c hc).hasArity
    rcases Condition.bind_error_cases harity hbind with h | ⟨_, rfl⟩ | ⟨_, _, _, rfl⟩
    · rcases Target.find_eq_error h with rfl | ⟨_, rfl⟩
      · exact ⟨nofun, nofun, nofun⟩
      · exact ⟨nofun, nofun, fun _ _ => ⟨c, hc, h⟩⟩
    · exact ⟨nofun, nofun, nofun⟩
    · exact ⟨nofun, nofun, nofun⟩

/-- A range next to a group that was read, with a condition on a field of unknown type in it. -/
theorem defenses_unreached_group :
    let schema : Schema := ⟨[⟨"Payment", .list (.number .i32)⟩, ⟨"Id", .other "uuid"⟩]⟩
    let j : Json := .object [("conditions", .array [.object [("field", .string "id"),
      ("values", .array [.null, .null])]])]
    let c := (Condition.between "payment" .null (.number (.int 41))).withCase .upper
    ∃ group, ofJson j = .ok group ∧
      let s := (any.addCondition c).addGroup group
      s.Obtainable ∧ c.HasOperands ∧ s.plan schema = .error (.unknownType "uuid") ∧
        ∃ d ∈ s.leaves, d.Obtainable ∧
          Target.find schema d.field = .error (.unknownType "uuid") := by
  intro schema j c
  have hgroup : ofJson j =
      .ok (all.addCondition (.plain "id" .equal [.null, .null])) := by rfl
  refine ⟨_, hgroup, ?_⟩
  intro s
  have hc : c.Obtainable := .withCase (.between "payment" .null (.number (.int 41))) .upper
  have hs : s.Obtainable := .addGroup (.addCondition .any hc) (.ofJson hgroup)
  have hplan : s.plan schema = .error (.unknownType "uuid") := by
    simp only [s, schema, c]
    rfl
  obtain ⟨hleaves, herrors⟩ := defenses_unreached.2.1 s hs
  obtain ⟨d, hd, hfind⟩ := (herrors schema _ hplan).2.2 "uuid" rfl
  exact ⟨hs, (defenses_unreached.1 c hc).1, hplan, d, hd, hleaves d hd, hfind⟩

end Search

end RecordSearch
