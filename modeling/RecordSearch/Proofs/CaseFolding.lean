import RecordSearch.Proofs.Ranges

/-!
Folding leaves no trace of the case of ASCII letters. A letter and its capital are both cased, so
what stands next to them, a sigma included, is folded alike.

* `Case.lower_congr` and `Case.upper_congr`: texts that differ in the case of ASCII letters alone
  are folded to the same text;
* `Value.SameTexts`: what a text field holds, but for that case;
* `Condition.folding_ignores_case`: a folded condition on a text field cannot tell operands or
  records of this kind apart.
-/

namespace RecordSearch

namespace Case

variable {s t : String}

/-- Conversion treats the two characters alike, wherever they stand. -/
structure FoldsAlike (c d : Char) : Prop where
  cased : isCased c = isCased d
  ignorable : isCaseIgnorable c = isCaseIgnorable d
  sigma : (c == 'Σ') = (d == 'Σ')
  lower : lowerChar c = lowerChar d
  upper : upperChar c = upperChar d

instance (c d : Char) : Decidable (FoldsAlike c d) :=
  decidable_of_iff (isCased c = isCased d ∧ isCaseIgnorable c = isCaseIgnorable d ∧
      (c == 'Σ') = (d == 'Σ') ∧ lowerChar c = lowerChar d ∧ upperChar c = upperChar d)
    ⟨fun h => ⟨h.1, h.2.1, h.2.2.1, h.2.2.2.1, h.2.2.2.2⟩,
      fun h => ⟨h.cased, h.ignorable, h.sigma, h.lower, h.upper⟩⟩

/-- The 26 capital letters of ASCII. -/
theorem foldsAlike_capital :
    ∀ n < 26, FoldsAlike (Char.ofNat (65 + n)).toLower (Char.ofNat (65 + n)) := by
  decide +kernel

theorem foldsAlike_toLower (c : Char) : FoldsAlike c.toLower c := by
  by_cases hupper : 'A'.toNat ≤ c.toNat ∧ c.toNat ≤ 'Z'.toNat
  · obtain ⟨hlow, hhigh⟩ : 65 ≤ c.toNat ∧ c.toNat ≤ 90 := hupper
    have hcapital := foldsAlike_capital (c.toNat - 65) (by omega)
    rwa [Nat.add_sub_cancel' hlow, Char.ofNat_toNat] at hcapital
  · rw [Ascii.toLower_of_not_isUpper hupper]
    exact ⟨rfl, rfl, rfl, rfl, rfl⟩

theorem meetsCased_cons (c : Char) (cs : List Char) :
    meetsCased (c :: cs) = if isCaseIgnorable c then meetsCased cs else isCased c := by
  cases h : isCaseIgnorable c <;> simp [meetsCased, h]

theorem meetsCased_map_toLower (cs : List Char) :
    meetsCased (cs.map Char.toLower) = meetsCased cs := by
  induction cs with
  | nil => rfl
  | cons c cs ih =>
    have hc := foldsAlike_toLower c
    rw [List.map_cons, meetsCased_cons, meetsCased_cons, hc.cased, hc.ignorable, ih]

theorem lowerFrom_map_toLower (afterCased : Bool) (cs : List Char) :
    lowerFrom afterCased (cs.map Char.toLower) = lowerFrom afterCased cs := by
  induction cs generalizing afterCased with
  | nil => rfl
  | cons c cs ih =>
    have hc := foldsAlike_toLower c
    simp only [List.map_cons, lowerFrom, hc.sigma, hc.lower, hc.ignorable, hc.cased,
      meetsCased_map_toLower, ih]

theorem flatMap_upperChar_map_toLower (cs : List Char) :
    (cs.map Char.toLower).flatMap upperChar = cs.flatMap upperChar := by
  rw [List.flatMap_map]
  exact congrArg cs.flatMap (funext fun c => (foldsAlike_toLower c).upper)

theorem map_toLower_of_same (h : Ascii.same s t = true) :
    s.toList.map Char.toLower = t.toList.map Char.toLower :=
  String.ofList_injective (Ascii.same_iff.1 h)

theorem lower_congr (h : Ascii.same s t = true) : lower s = lower t := by
  rw [lower, lower, ← lowerFrom_map_toLower, map_toLower_of_same h, lowerFrom_map_toLower]

theorem upper_congr (h : Ascii.same s t = true) : upper s = upper t := by
  rw [upper, upper, ← flatMap_upperChar_map_toLower, map_toLower_of_same h,
    flatMap_upperChar_map_toLower]

end Case

theorem CaseMode.apply_congr {mode : CaseMode} {s t : String} (hmode : mode ≠ .default)
    (h : Ascii.same s t = true) : mode.apply s = mode.apply t := by
  cases mode with
  | default => exact absurd rfl hmode
  | lower => exact Case.lower_congr h
  | upper => exact Case.upper_congr h

theorem CaseMode.map_apply_congr {mode : CaseMode} {ss ts : List String} (hmode : mode ≠ .default)
    (h : List.Forall₂ (fun s t => Ascii.same s t = true) ss ts) :
    (ss.map fun s => Scalar.text (mode.apply s)) = ts.map fun s => .text (mode.apply s) := by
  induction h with
  | nil => rfl
  | cons hs _ ih => rw [List.map_cons, List.map_cons, apply_congr hmode hs, ih]

/-- One text, but for the case of ASCII letters, or none on both sides. -/
inductive Value.SameText : Value → Value → Prop where
  | null : SameText .null .null
  | text {s t : String} (h : Ascii.same s t = true) : SameText (.text s) (.text t)

/-- What a text field holds, but for the case of ASCII letters: one text or a list of them. -/
inductive Value.SameTexts : Value → Value → Prop where
  | one {v w : Value} (h : SameText v w) : SameTexts v w
  | list {vs ws : List Value} (h : List.Forall₂ SameText vs ws) : SameTexts (.list vs) (.list ws)

section Columns

variable {mode : CaseMode} {v w : Value}

theorem Value.SameText.project?_eq (h : v.SameText w) (hmode : mode ≠ .default) :
    (Projection.text mode).project? v = (Projection.text mode).project? w := by
  cases h with
  | null => rfl
  | text h => simp only [Projection.project?, CaseMode.apply_congr hmode h]

theorem Value.SameText.filterMap_project?_eq {vs ws : List Value}
    (h : List.Forall₂ SameText vs ws) (hmode : mode ≠ .default) :
    vs.filterMap (Projection.text mode).project? =
      ws.filterMap (Projection.text mode).project? := by
  induction h with
  | nil => rfl
  | cons hv _ ih => simp only [List.filterMap_cons, hv.project?_eq hmode, ih]

theorem columnMatches_of_sameTexts (h : v.SameTexts w) (hmode : mode ≠ .default)
    (many negated : Bool) (test : Scalar → Bool) :
    columnMatches v many (.text mode) negated test =
      columnMatches w many (.text mode) negated test := by
  cases h with
  | one h =>
    cases many with
    | true => cases h <;> rfl
    | false => simp only [columnMatches, h.project?_eq hmode, Bool.false_eq_true, if_false]
  | list h =>
    cases many with
    | false => rfl
    | true => simp only [columnMatches, Value.SameText.filterMap_project?_eq h hmode, if_true]

end Columns

namespace Comparator

variable {mode : CaseMode} {column : Column} {o : Operation} {ss : List String}

theorem evaluate_askScalars_of_sameTexts {row row' : Row}
    (h : (Row.value row column.index).SameTexts (Row.value row' column.index))
    (hmode : mode ≠ .default) (bs : List Scalar) :
    ((string mode).askScalars column o bs).evaluate row =
      ((string mode).askScalars column o bs).evaluate row' := by
  have hcolumn := columnMatches_of_sameTexts h hmode column.many
  cases hc : o.comparison? with
  | some p =>
    obtain ⟨comparison, negated⟩ := p
    simp only [askScalars, hc, Expression.evaluate_all, List.all_map, Function.comp_def,
      Expression.evaluate, projection, hcolumn]
  | none =>
    rcases bs with _ | ⟨low, _ | ⟨high, _ | _⟩⟩ <;>
      simp only [askScalars, hc, Expression.evaluate, projection, hcolumn]

/-- Text operands are folded and asked. -/
theorem bind_texts (ha : o.arity.accepts ss.length = true) :
    (string mode).bind column o (ss.map .text) =
      .ok ((string mode).askScalars column o (ss.map fun s => .text (mode.apply s))) := by
  apply bind_scalars rfl (by rwa [List.length_map])
  rw [List.forall₂_map_left_iff, List.forall₂_map_right_iff, List.forall₂_same]
  exact fun s _ => rfl

end Comparator

theorem FieldType.comparator?_of_kind_string {t : FieldType} (h : t.scalarKind? = some .string)
    (mode : CaseMode) (format : DateFormat) :
    t.comparator? mode format = some (.string mode) := by
  cases t with
  | string | char => rfl
  | _ => cases h

namespace Condition

variable {c : Condition} {schema : Schema} {defaultFormat : DateFormat} {t : Target}
  {o : Operation} {ss ts : List String}

theorem bind_texts_of_find (ht : Target.find schema c.field = .ok t) (hkind : t.kind = .string)
    (ha : o.arity.accepts ss.length = true) :
    (c.asking o (ss.map .text)).bind schema defaultFormat =
      .ok ((Comparator.string c.case).askScalars t.column o
        (ss.map fun s => .text (c.case.apply s))) := by
  have hscalar := Target.scalarKind?_type_of_find ht
  rw [hkind] at hscalar
  rw [bind_asking_of_find ht, FieldType.comparator?_of_kind_string hscalar]
  exact Comparator.bind_texts ha

/-- **Folding ignores the case of ASCII letters.** A condition on a text field that folds, with any
operation, is bound for any texts that it can take. If these are changed in the case of ASCII
letters, and the texts of the field too, it holds just if it held. -/
theorem folding_ignores_case (ht : Target.find schema c.field = .ok t) (hkind : t.kind = .string)
    (hmode : c.case ≠ .default) (ha : o.arity.accepts ss.length = true)
    (hsame : List.Forall₂ (fun s t => Ascii.same s t = true) ss ts) :
    ∃ e d, (c.asking o (ss.map .text)).bind schema defaultFormat = .ok e ∧
      (c.asking o (ts.map .text)).bind schema defaultFormat = .ok d ∧
      ∀ row row' : Row, (Row.value row t.index).SameTexts (Row.value row' t.index) →
        e.evaluate row = d.evaluate row' := by
  refine ⟨_, _, bind_texts_of_find ht hkind ha,
    bind_texts_of_find ht hkind (hsame.length_eq ▸ ha), ?_⟩
  intro row row' hrow
  rw [← CaseMode.map_apply_congr hmode hsame]
  exact Comparator.evaluate_askScalars_of_sameTexts hrow hmode _

/-- A list with a null in it, and sigmas next to letters that change. -/
theorem folding_ignores_case_sigma :
    let schema : Schema := ⟨[⟨"Id", .number .i32⟩, ⟨"Tags", .optional (.list .string)⟩]⟩
    let c : Condition := (plain "TAGS" .equal []).withCase .lower
    ∃ e d, (c.asking .contains [.text "Σb", .text "ß"]).bind schema .isoDateTime = .ok e ∧
      (c.asking .contains [.text "ΣB", .text "ß"]).bind schema .isoDateTime = .ok d ∧
      e.evaluate [.null, .list [.text "aΣbß", .null]] =
        d.evaluate [.null, .list [.text "AΣBß", .null]] := by
  intro schema c
  have hfind : Target.find schema c.field = .ok ⟨1, "Tags", .string, .string, true⟩ := by
    simp only [schema, c]
    rfl
  have hsame : List.Forall₂ (fun s t => Ascii.same s t = true) ["Σb", "ß"] ["ΣB", "ß"] :=
    .cons (by decide) (.cons (by decide) .nil)
  have htexts : Value.SameTexts (.list [.text "aΣbß", .null]) (.list [.text "AΣBß", .null]) :=
    .list (.cons (.text (by decide)) (.cons .null .nil))
  obtain ⟨e, d, he, hd, hrows⟩ := @folding_ignores_case c schema .isoDateTime _ .contains _ _ hfind
    rfl (by decide) rfl hsame
  exact ⟨e, d, he, hd, hrows _ _ htexts⟩

end Condition

end RecordSearch
