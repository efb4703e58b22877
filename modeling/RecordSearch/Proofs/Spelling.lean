import RecordSearch.Proofs.AlikeFields
import Mathlib.Logic.Relation

/-!
Searches that are spelled in different ways. Order and case of keys, keys that a node has no use
for, nulls, the second name of the case mode, an operand without an array around it, and codes as
numbers, digits or names make no difference to what is read.

* `Json.Respelling`: one difference in spelling, at any node of a search;
* `Json.Respelling.alikeFor`: what a reader finds on both sides of it;
* `Search.ofJson_of_respelled`: spellings of one search are read alike.
-/

namespace RecordSearch

namespace Json

/-- One difference in spelling between the fields of an object, or of an object below it in the
search. -/
inductive Respelling : Role → List (String × Json) → List (String × Json) → Prop
  /-- The fields of an object have no order. -/
  | order {r : Role} {as bs : List (String × Json)} (h : as.Perm bs) : Respelling r as bs
  /-- Names count in any case. -/
  | key {r : Role} {k l : String} {v : Json} {rest : List (String × Json)}
      (h : Ascii.same k l = true) : Respelling r ((k, v) :: rest) ((l, v) :: rest)
  /-- A name that does not count may stand there or not. -/
  | extra {r : Role} {k : String} {v : Json} {rest : List (String × Json)}
      (h : ∀ name ∈ r.names, Ascii.same k name = false) : Respelling r ((k, v) :: rest) rest
  /-- A null under a name is no field, unless the name tells what the object is. -/
  | null {r : Role} {k : String} {rest : List (String × Json)}
      (hconditions : Ascii.same k "conditions" = false) (hfield : Ascii.same k "field" = false) :
      Respelling r ((k, null) :: rest) rest
  /-- The case mode has a second name. -/
  | incase {k l : String} {v : Json} {rest : List (String × Json)}
      (hk : Ascii.same k "case" = true) (hl : Ascii.same l "incase" = true) :
      Respelling .condition ((k, v) :: rest) ((l, v) :: rest)
  /-- The second name of the case mode does not count beside the first. -/
  | unread {k : String} {v w : Json} {rest : List (String × Json)}
      (hk : Ascii.same k "incase" = true) (hcase : find? rest "case" = some w) :
      Respelling .condition ((k, v) :: rest) rest
  /-- One operand may stand without an array. -/
  | single {k : String} {v : Json} {rest : List (String × Json)}
      (hk : Ascii.same k "values" = true) (hv : v.isScalar = true) :
      Respelling .condition ((k, v) :: rest) ((k, array [v]) :: rest)
  /-- A code may be written as any of its spellings. -/
  | code {r : Role} {kind : CodeKind} {name k : String} {n : Int} {v w : Json}
      {rest : List (String × Json)} (hname : name ∈ r.names) (hkind : name ∈ kind.keys)
      (hk : Ascii.same k name = true) (hv : v.Spells kind.names n) (hw : w.Spells kind.names n) :
      Respelling r ((k, v) :: rest) ((k, w) :: rest)
  /-- All of this holds of the objects below a search or a group. -/
  | child {r : Role} {k : String} {before after : List Json} {as bs rest : List (String × Json)}
      (hr : r.hasChildren = true) (hk : Ascii.same k "conditions" = true)
      (h : Respelling (.ofNode as) as bs) :
      Respelling r ((k, array (before ++ object as :: after)) :: rest)
        ((k, array (before ++ object bs :: after)) :: rest)

namespace Respelling

variable {r : Role} {as bs : List (String × Json)} {name : String}

theorem has_eq (h : Respelling r as bs) (hname : name ∈ r.names)
    (htells : name = "conditions" ∨ name = "field") : has as name = has bs name := by
  cases h with
  | order h => exact h.any_eq
  | key h => exact congrArg (· || _) (Ascii.same_congr h)
  | extra h =>
    rw [has, List.any_cons, h name hname, Bool.false_or]
    rfl
  | @null _ k rest hconditions hfield =>
    have hk : Ascii.same k name = false := by
      rcases htells with rfl | rfl
      · exact hconditions
      · exact hfield
    rw [has, List.any_cons, hk, Bool.false_or]
    rfl
  | @incase k l v rest hk hl =>
    have hother : Ascii.same k name = Ascii.same l name := by
      rw [Ascii.same_congr hk, Ascii.same_congr hl]
      rcases htells with rfl | rfl <;> decide
    exact congrArg (· || _) hother
  | @unread k v w rest hk hcase =>
    have hother : Ascii.same k name = false := by
      rw [Ascii.same_congr hk]
      rcases htells with rfl | rfl <;> decide
    rw [has, List.any_cons, hother, Bool.false_or]
    rfl
  | single | code | child => rfl

/-- **One difference in spelling is none to a reader.** -/
theorem alikeFor (h : Respelling r as bs) (ha : (object as).isUnambiguous = true)
    (hb : (object bs).isUnambiguous = true) : AlikeFor r as bs := by
  induction h with
  | order h =>
    apply AlikeFor.of_find?
    intro name _
    exact find?_perm h (isUnambiguous_object.1 ha).1
  | key h =>
    apply AlikeFor.of_find?
    intro name _
    rw [find?_cons, find?_cons, Ascii.same_congr h]
  | extra h =>
    apply AlikeFor.of_find?
    intro name hname
    exact find?_of_not_same (h name hname)
  | @null r k rest hconditions hfield =>
    apply AlikeFor.of_find?
    intro name _
    rw [find?_cons]
    by_cases hk : Ascii.same k name = true
    · rw [if_pos hk, find?_rest (isUnambiguous_object.1 ha).1 hk]
      rfl
    · rw [if_neg hk]
  | @incase k l v rest hk hl =>
    have hrest : find? rest "incase" = none := find?_rest (isUnambiguous_object.1 hb).1 hl
    have hcase : find? rest "case" = none := find?_rest (isUnambiguous_object.1 ha).1 hk
    have hfirst : ∀ name ∈ Role.condition.names, name ≠ "case" → Ascii.same k name = false :=
      fun _ => Role.not_same (by decide) hk
    have hsecond : ∀ name ∈ Role.condition.names, name ≠ "incase" → Ascii.same l name = false :=
      fun _ => Role.not_same (by decide) hl
    constructor
    · intro name hname hne hne'
      rw [find?_of_not_same (hfirst name hname hne), find?_of_not_same (hsecond name hname hne')]
      exact AlikeUnder.rel_refl _
    · intro _
      rw [findCase, find?_of_not_same (hfirst "incase" (by decide) (by decide)), hrest,
        Option.or_none, find?_cons, if_pos hk]
      rw [findCase, find?_of_not_same (hsecond "case" (by decide) (by decide)), hcase,
        Option.none_or, find?_cons, if_pos hl]
      exact AlikeUnder.rel_refl _
  | @unread k v w rest hk hcase =>
    have hother : ∀ name ∈ Role.condition.names, name ≠ "incase" → Ascii.same k name = false :=
      fun _ => Role.not_same (by decide) hk
    constructor
    · intro name hname _ hne
      rw [find?_of_not_same (hother name hname hne)]
      exact AlikeUnder.rel_refl _
    · intro _
      rw [findCase, findCase, find?_of_not_same (hother "case" (by decide) (by decide)), hcase,
        Option.some_or, Option.some_or]
      exact AlikeUnder.rel_refl _
  | @single k v rest hk hv =>
    have hname : "values" ∈ Role.condition.names := by decide
    exact AlikeFor.of_value hname hk (isNull_of_isScalar hv) rfl (.single rfl hv)
  | code hname hkind hk hv hw =>
    exact AlikeFor.of_value hname hk hv.isNull_eq_false hw.isNull_eq_false (.code hkind hv hw)
  | @child r k before after as bs rest hr hk h ih =>
    have hname : ∀ r : Role, "conditions" ∈ r.names := by
      intro r
      cases r <;> decide
    have hfields := ih (isUnambiguous_of_child ha) (isUnambiguous_of_child hb)
    have hconditions : has as "conditions" = has bs "conditions" :=
      h.has_eq (hname _) (.inl rfl)
    have hfield : has as "conditions" = false → has as "field" = has bs "field" := by
      intro hnone
      refine h.has_eq ?_ (.inr rfl)
      rw [Role.ofNode, if_neg (Bool.eq_false_iff.1 hnone)]
      split <;> decide
    exact AlikeFor.of_value (hname r) hk rfl rfl
      (.child rfl (Node.toOption_ofJson hfields hconditions hfield))

end Respelling

end Json

open Json

namespace Search

/-- One difference in spelling between searches in which no two names of an object are the same but
for case. -/
inductive Respelled : Json → Json → Prop
  | intro {as bs : List (String × Json)} (h : Respelling .search as bs)
      (ha : (object as).isUnambiguous = true) (hb : (object bs).isUnambiguous = true) :
      Respelled (.object as) (.object bs)

/-- **Spellings of one search are read alike.** -/
theorem ofJson_of_respelled {a b : Json} (h : Relation.EqvGen Respelled a b) :
    (ofJson a).toOption = (ofJson b).toOption := by
  induction h with
  | rel a b h =>
    obtain ⟨h, ha, hb⟩ := h
    exact toOption_ofJson (h.alikeFor ha hb)
  | refl a => rfl
  | symm a b _ ih => exact ih.symm
  | trans a b c _ _ ih ih' => exact ih.trans ih'

/-- A search as it is written, and another spelling of it. -/
theorem ofJson_of_respelled_nested :
    let a : Json := .object [("Conditions", .array [.object [("Case", .number "1"),
      ("Field", .string "Name"), ("Operation", .number "6"), ("Values", .array [.string "den"])]]),
      ("Operator", .number "1")]
    let b : Json := .object [("Limit", .number "10"), ("OPERATOR", .string " or\n"),
      ("Conditions", .array [.object [("Format", .null), ("Values", .string "den"),
        ("incase", .string "1"), ("Field", .string "Name"), ("Operation", .number "6")]])]
    Relation.EqvGen Respelled a b ∧
      (ofJson a).toOption = (ofJson b).toOption ∧ (ofJson b).toOption.map leafCount = some 1 := by
  intro a b
  have hstep : ∀ as bs : List (String × Json), Respelling .search as bs →
      ((object as).isUnambiguous && (object bs).isUnambiguous) = true →
        Relation.EqvGen Respelled (.object as) (.object bs) := by
    intro as bs h hapart
    obtain ⟨ha, hb⟩ := Bool.and_eq_true_iff.1 hapart
    exact .rel _ _ (.intro h ha hb)
  let above (fields : List (String × Json)) : List (String × Json) :=
    [("Conditions", .array [.object fields]), ("Operator", .number "1")]
  have hchild : ∀ as bs : List (String × Json), Role.ofNode as = .condition →
      Respelling .condition as bs →
      ((object (above as)).isUnambiguous && (object (above bs)).isUnambiguous) = true →
        Relation.EqvGen Respelled (.object (above as)) (.object (above bs)) := by
    intro as bs hrole h hapart
    exact hstep _ _ (@Respelling.child .search "Conditions" [] [] as bs _ rfl (by decide)
      (hrole ▸ h)) hapart
  let plain : List (String × Json) := [("Field", .string "Name"), ("Operation", .number "6")]
  let values : String × Json := ("Values", .array [.string "den"])
  have hmode : ∀ rest, Respelling .condition (("incase", .number "1") :: rest)
      (("incase", .string "1") :: rest) := by
    intro rest
    have hkey : "incase" ∈ CodeKind.case.keys := by decide
    have hplain : Text.IsPadded "1" "1" :=
      ⟨[], [], List.forall_mem_nil _, List.forall_mem_nil _, rfl⟩
    exact .code (by decide) hkey (by decide) (.number rfl) (.digits hplain rfl)
  have hoperator : ∀ rest, Respelling .search (("OPERATOR", .number "1") :: rest)
      (("OPERATOR", .string " or\n") :: rest) := by
    intro rest
    have hkey : "operator" ∈ CodeKind.connective.keys := by decide
    have hcode : ((1, "Or") : Int × String) ∈ CodeKind.connective.names := by decide
    have hpadded : Text.IsPadded " or\n" "or" :=
      ⟨[' '], ['\n'], List.forall_mem_singleton.2 rfl, List.forall_mem_singleton.2 rfl, rfl⟩
    exact .code (by decide) hkey (by decide) (.number rfl) (.name hpadded hcode (by decide))
  have hbelow : Relation.EqvGen Respelled a (.object (above (("Format", .null) ::
      ("Values", .string "den") :: ("incase", .string "1") :: plain))) := by
    refine .trans _ _ _ (hchild _ (("incase", .number "1") :: plain ++ [values]) (by decide)
      (.incase (by decide) (by decide)) (by decide)) ?_
    refine .trans _ _ _ (hchild _ (("incase", .string "1") :: plain ++ [values]) (by decide)
      (hmode _) (by decide)) ?_
    refine .trans _ _ _ (hchild _ (values :: ("incase", .string "1") :: plain) (by decide)
      (.order List.perm_append_comm) (by decide)) ?_
    refine .trans _ _ _ (.symm _ _ (hchild (("Values", .string "den") :: ("incase", .string "1") ::
      plain) _ (by decide) (.single (by decide) rfl) (by decide))) ?_
    exact .symm _ _ (hchild _ _ (by decide) (.null (by decide) (by decide)) (by decide))
  have habove : Relation.EqvGen Respelled (.object (above (("Format", .null) ::
      ("Values", .string "den") :: ("incase", .string "1") :: plain))) b := by
    refine .trans _ _ _ (hstep _ _ (.order (.swap _ _ _)) (by decide)) ?_
    refine .trans _ _ _ (hstep _ _ (.key (l := "OPERATOR") (by decide)) (by decide)) ?_
    refine .trans _ _ _ (hstep _ _ (hoperator _) (by decide)) ?_
    exact .symm _ _ (hstep _ _ (.extra (by decide)) (by decide))
  have h := Relation.EqvGen.trans _ _ _ hbelow habove
  exact ⟨h, ofJson_of_respelled h, by decide +kernel⟩

end Search

end RecordSearch
