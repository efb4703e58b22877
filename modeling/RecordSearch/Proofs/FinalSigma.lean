import RecordSearch.Proofs.CaseFolding
import RecordSearch.Proofs.ListFields

/-!
Searching folded text for folded fragments. Upper case goes character by character, so what is
found in a text is found in its upper case too. Lower case looks around a capital sigma, which is
written in another way at the end of a word, and a fragment may end where the word goes on.

* `Case.EndsWord`: the place of a final sigma, and `Case.lower_append` for the lower case of a text
  in three parts;
* `Case.lowerAmid_eq_iff`: a part of a text is lowered as it is alone just if its sigmas stay final
  or not;
* `Operation.FindsIn` and `Operation.FindsKept`: an operation finds its operand in a text, and does
  so where the sigmas stay;
* `columnMatches_text_iff`: a text column by the texts that it holds;
* `Condition.folding_keeps_matches`: what matches as it is matches in upper case, and in lower case
  unless a sigma changes;
* `Condition.folding_loses_match`: a fragment whose last sigma is not the end of the word.
-/

namespace RecordSearch

namespace Case

/-- A sigma between the two texts is the last letter of a word. -/
def EndsWord (before after : List Char) : Prop :=
  meetsCased before.reverse = true ∧ meetsCased after = false

instance (before after : List Char) : Decidable (EndsWord before after) :=
  inferInstanceAs (Decidable (_ ∧ _))

/-- Lower case of a character that stands between the two texts. -/
def lowerAt (before after : List Char) (c : Char) : List Char :=
  if c = 'Σ' then [if EndsWord before after then 'ς' else 'σ'] else lowerChar c

/-- Lower case of a text that stands between two others. -/
def lowerAmid (before after : List Char) : List Char → List Char
  | [] => []
  | c :: rest => lowerAt before (rest ++ after) c ++ lowerAmid (before ++ [c]) after rest

variable {before after cs : List Char}

theorem meetsCased_reverse_concat (before : List Char) (c : Char) :
    meetsCased (before ++ [c]).reverse =
      if isCaseIgnorable c then meetsCased before.reverse else isCased c := by
  rw [List.reverse_append, List.reverse_singleton, List.singleton_append, meetsCased_cons]

/-- What conversion remembers of the text before is whether a sigma could be final after it. -/
theorem lowerFrom_eq_lowerAmid (before cs : List Char) :
    lowerFrom (meetsCased before.reverse) cs = lowerAmid before [] cs := by
  induction cs generalizing before with
  | nil => rfl
  | cons c rest ih =>
    have hhere : (if c == 'Σ' then
        [if meetsCased before.reverse && !meetsCased rest then 'ς' else 'σ'] else lowerChar c) =
          lowerAt before (rest ++ []) c := by
      simp [lowerAt, EndsWord]
    rw [lowerFrom, lowerAmid, hhere, ← meetsCased_reverse_concat, ih]

theorem lowerAmid_append (before after cs ds : List Char) : lowerAmid before after (cs ++ ds) =
    lowerAmid before (ds ++ after) cs ++ lowerAmid (before ++ cs) after ds := by
  induction cs generalizing before with
  | nil => simp [lowerAmid]
  | cons c rest ih => simp [lowerAmid, ih]

theorem toList_lower (s : String) : (lower s).toList = lowerAmid [] [] s.toList := by
  rw [lower, String.toList_ofList]
  exact lowerFrom_eq_lowerAmid [] s.toList

theorem lower_append {s : String} (h : s.toList = before ++ (cs ++ after)) :
    (lower s).toList = lowerAmid [] (cs ++ after) before ++
      (lowerAmid before after cs ++ lowerAmid (before ++ cs) [] after) := by
  rw [toList_lower, h, lowerAmid_append, lowerAmid_append, List.append_nil, List.append_nil,
    List.nil_append]

/-- Every capital sigma in the part is the last letter of a word within the whole just if it is so
within the part alone. -/
def SigmasStay (before cs after : List Char) : Prop :=
  ∀ left right, cs = left ++ 'Σ' :: right →
    (EndsWord (before ++ left) (right ++ after) ↔ EndsWord left right)

theorem sigmasStay_of_not_mem (h : 'Σ' ∉ cs) (before after : List Char) :
    SigmasStay before cs after := by
  rintro left right rfl
  exact absurd (List.mem_append_right left List.mem_cons_self) h

theorem sigmasStay_self (cs : List Char) : SigmasStay [] cs [] := by
  intro left right _
  rw [List.nil_append, List.append_nil]

theorem length_lowerAt (before after before' after' : List Char) (c : Char) :
    (lowerAt before after c).length = (lowerAt before' after' c).length := by
  rw [lowerAt, lowerAt]
  split <;> rfl

theorem length_lowerAmid (before after before' after' cs : List Char) :
    (lowerAmid before after cs).length = (lowerAmid before' after' cs).length := by
  induction cs generalizing before before' with
  | nil => rfl
  | cons c rest ih =>
    rw [lowerAmid, lowerAmid, List.length_append, List.length_append, ih,
      length_lowerAt _ _ before' (rest ++ after')]

theorem lowerAt_eq_iff {before' after' : List Char} {c : Char} :
    lowerAt before after c = lowerAt before' after' c ↔
      (c = 'Σ' → (EndsWord before after ↔ EndsWord before' after')) := by
  by_cases hc : c = 'Σ'
  · by_cases h : EndsWord before after <;> by_cases h' : EndsWord before' after' <;>
      simp [lowerAt, hc, h, h']
  · simp [lowerAt, hc]

theorem forall_split_cons {c a : Char} {P : List Char → List Char → Prop} :
    (∀ left right, c :: cs = left ++ a :: right → P left right) ↔
      (c = a → P [] cs) ∧ ∀ left right, cs = left ++ a :: right → P (c :: left) right := by
  constructor
  · intro h
    refine ⟨fun hc => h [] cs (by rw [hc, List.nil_append]), fun left right hcs => ?_⟩
    exact h (c :: left) right (by rw [hcs, List.cons_append])
  · rintro ⟨hhere, hrest⟩ left right h
    cases left with
    | nil =>
      obtain ⟨hc, rfl⟩ := List.cons.inj h
      exact hhere hc
    | cons d left =>
      obtain ⟨rfl, hcs⟩ := List.cons.inj h
      exact hrest left right hcs

/-- The induction is on what is left of the part, so what of it is done stands among the text
before on both sides. -/
theorem lowerAmid_append_eq_iff (done : List Char) :
    lowerAmid (before ++ done) after cs = lowerAmid done [] cs ↔
      ∀ left right, cs = left ++ 'Σ' :: right →
        (EndsWord (before ++ (done ++ left)) (right ++ after) ↔ EndsWord (done ++ left) right) := by
  induction cs generalizing done with
  | nil => simp [lowerAmid]
  | cons c rest ih =>
    have hsplit : lowerAmid (before ++ done) after (c :: rest) = lowerAmid done [] (c :: rest) ↔
        lowerAt (before ++ done) (rest ++ after) c = lowerAt done (rest ++ []) c ∧
          lowerAmid (before ++ (done ++ [c])) after rest = lowerAmid (done ++ [c]) [] rest := by
      rw [lowerAmid, lowerAmid, List.append_assoc before]
      constructor
      · exact fun h => List.append_inj h (length_lowerAt ..)
      · rintro ⟨hhere, hrest⟩
        rw [hhere, hrest]
    rw [hsplit, lowerAt_eq_iff, ih, forall_split_cons]
    simp only [List.append_nil, List.append_assoc, List.singleton_append]

theorem lowerAmid_eq_iff :
    lowerAmid before after cs = lowerAmid [] [] cs ↔ SigmasStay before cs after := by
  have h := @lowerAmid_append_eq_iff before after cs []
  rwa [List.append_nil] at h

end Case

namespace Operation

open Case

variable {o : Operation} {before after : List Char} {u v : String}

/-- What may stand before and after the operand in a text where the operation finds it. -/
def Finds : Operation → List Char → List Char → Prop
  | equal, before, after => before = [] ∧ after = []
  | contains, _, _ => True
  | startsWith, before, _ => before = []
  | endsWith, _, after => after = []
  | _, _, _ => False

/-- The operations that find a text in a text, without negation. -/
def finders : List Operation := [equal, contains, startsWith, endsWith]

/-- The operand occurs in the text, in the way of the operation. -/
def FindsIn (o : Operation) (v u : String) : Prop :=
  ∃ before after, o.Finds before after ∧ v.toList = before ++ (u.toList ++ after)

/-- It does so at a place where its capital sigmas are final or not as they are in it alone. -/
def FindsKept (o : Operation) (v u : String) : Prop :=
  ∃ before after, o.Finds before after ∧ v.toList = before ++ (u.toList ++ after) ∧
    SigmasStay before u.toList after

/-- What stands around an operand may be changed, if nothing stays nothing. -/
theorem Finds.congr {before' after' : List Char} (h : o.Finds before after)
    (hbefore : before = [] → before' = []) (hafter : after = [] → after' = []) :
    o.Finds before' after' := by
  cases o with
  | equal => exact ⟨hbefore h.1, hafter h.2⟩
  | contains => trivial
  | startsWith => exact hbefore h
  | endsWith => exact hafter h
  | _ => exact h.elim

theorem comparison?_of_mem_finders (ho : o ∈ finders) : ∃ comparison,
    o.comparison? = some (comparison, false) ∧ ∀ u v : String,
      (Scalar.text v).satisfies comparison (.text u) = true ↔ o.FindsIn v u := by
  simp only [finders, List.mem_cons, List.not_mem_nil, or_false] at ho
  rcases ho with rfl | rfl | rfl | rfl
  · refine ⟨.equal, rfl, fun u v => ?_⟩
    have hequal : (Scalar.text v).satisfies .equal (.text u) = true ↔ v.toList = u.toList := by
      rw [String.toList_inj]
      simp [Scalar.satisfies, Scalar.compare?, Comparison.isTextual, Comparison.admits]
    simp [hequal, FindsIn, Finds]
  · refine ⟨.contains, rfl, fun u v => Text.contains_iff.trans ?_⟩
    simp [FindsIn, Finds, List.IsInfix, eq_comm]
  · refine ⟨.startsWith, rfl, fun u v => Text.startsWith_iff.trans ?_⟩
    simp [FindsIn, Finds, List.IsPrefix, eq_comm]
  · refine ⟨.endsWith, rfl, fun u v => Text.endsWith_iff.trans ?_⟩
    simp [FindsIn, Finds, List.IsSuffix, eq_comm]

/-- What is found is found in upper case. -/
theorem FindsIn.upper (h : o.FindsIn v u) : o.FindsIn (upper v) (upper u) := by
  obtain ⟨before, after, hfinds, hv⟩ := h
  refine ⟨before.flatMap upperChar, after.flatMap upperChar, hfinds.congr ?_ ?_, ?_⟩
  · rintro rfl
    rfl
  · rintro rfl
    rfl
  · simp only [Case.upper, String.toList_ofList, hv, List.flatMap_append]

/-- Where its sigmas stay, what is found is found in lower case. -/
theorem FindsKept.lower (h : o.FindsKept v u) : o.FindsIn (lower v) (lower u) := by
  obtain ⟨before, after, hfinds, hv, hstay⟩ := h
  refine ⟨_, _, hfinds.congr ?_ ?_,
    by rw [lower_append hv, lowerAmid_eq_iff.2 hstay, toList_lower]⟩
  · rintro rfl
    rfl
  · rintro rfl
    rfl

theorem FindsIn.kept (h : o.FindsIn v u) (hu : o = .equal ∨ 'Σ' ∉ u.toList) :
    o.FindsKept v u := by
  obtain ⟨before, after, hfinds, hv⟩ := h
  refine ⟨before, after, hfinds, hv, ?_⟩
  rcases hu with rfl | hu
  · obtain ⟨rfl, rfl⟩ := hfinds
    exact sigmasStay_self u.toList
  · exact sigmasStay_of_not_mem hu before after

/-- Unless the operand may stand anywhere, its place is the same in lower case, so its sigmas
stay. -/
theorem FindsIn.kept_of_lower (ho : o ≠ .contains) (h : o.FindsIn v u)
    (hlower : o.FindsIn (lower v) (lower u)) : o.FindsKept v u := by
  obtain ⟨before, after, hfinds, hv⟩ := h
  obtain ⟨before', after', hfinds', hv'⟩ := hlower
  refine ⟨before, after, hfinds, hv, lowerAmid_eq_iff.1 ?_⟩
  rw [lower_append hv, toList_lower] at hv'
  have hlength := length_lowerAmid before after [] [] u.toList
  cases o with
  | equal =>
    obtain ⟨rfl, rfl⟩ := hfinds
    rfl
  | contains => exact absurd rfl ho
  | startsWith =>
    obtain rfl : before = [] := hfinds
    obtain rfl : before' = [] := hfinds'
    simp only [lowerAmid, List.nil_append] at hv'
    exact (List.append_inj hv' hlength).1
  | endsWith =>
    obtain rfl : after = [] := hfinds
    obtain rfl : after' = [] := hfinds'
    simp only [lowerAmid, List.append_nil] at hv'
    exact (List.append_inj' hv' hlength).2
  | _ => exact hfinds.elim

end Operation

section Columns

variable {value : Value} {many : Bool} {mode : CaseMode} {test : Scalar → Bool}

/-- The text is what the field holds, or one of what it holds if it is a list. -/
def Value.HasText (value : Value) (many : Bool) (s : String) : Prop :=
  if many then ∃ items, value = .list items ∧ .text s ∈ items else value = .text s

theorem Value.HasText.unique {s t : String} (hs : value.HasText many s) (hmany : many = false)
    (ht : value.HasText many t) : s = t := by
  subst hmany
  obtain rfl : value = .text s := hs
  exact Value.text.inj ht

theorem Projection.project?_text_iff {s : Scalar} :
    (Projection.text mode).project? value = some s ↔
      ∃ t, value = .text t ∧ .text (mode.apply t) = s := by
  cases value <;> simp [Projection.project?]

theorem columnMatches_text_iff : columnMatches value many (.text mode) false test = true ↔
    ∃ s, value.HasText many s ∧ test (.text (mode.apply s)) = true := by
  have hone : ∀ v : Value, columnMatches v false (.text mode) false test = true ↔
      ∃ s, v = .text s ∧ test (.text (mode.apply s)) = true := by
    intro v
    simp only [columnMatches_scalar_iff, Projection.project?_text_iff, Bool.bne_false]
    constructor
    · rintro ⟨_, ⟨s, hs, rfl⟩, htest⟩
      exact ⟨s, hs, htest⟩
    · rintro ⟨s, hs, htest⟩
      exact ⟨_, ⟨s, hs, rfl⟩, htest⟩
  cases many with
  | false => exact hone value
  | true =>
    cases value with
    | list items =>
      simp only [columnMatches_list, hone, Value.HasText, if_true]
      constructor
      · rintro ⟨_, hv, s, rfl, htest⟩
        exact ⟨s, ⟨items, rfl, hv⟩, htest⟩
      · rintro ⟨s, ⟨_, hitems, hs⟩, htest⟩
        obtain rfl := Value.list.inj hitems
        exact ⟨_, hs, s, rfl, htest⟩
    | _ => simp [columnMatches, Value.HasText]

/-- Each operand has to be found in some text of the column, both in the case of the mode. -/
theorem Comparator.evaluate_askScalars_finds {o : Operation} (ho : o ∈ Operation.finders)
    (column : Column) (us : List String) (row : Row) :
    ((string mode).askScalars column o (us.map fun u => .text (mode.apply u))).evaluate row =
        true ↔
      ∀ u ∈ us, ∃ v, (Row.value row column.index).HasText column.many v ∧
        o.FindsIn (mode.apply v) (mode.apply u) := by
  obtain ⟨comparison, hc, hfinds⟩ := Operation.comparison?_of_mem_finders ho
  simp only [askScalars, hc, Expression.evaluate_all, List.map_map, List.all_eq_true,
    List.forall_mem_map, Function.comp_apply, Expression.evaluate, projection,
    columnMatches_text_iff, hfinds]

end Columns

namespace Condition

variable {c : Condition} {schema : Schema} {defaultFormat : DateFormat} {t : Target}
  {o : Operation} {us : List String}

/-- An operation that finds texts is bound for any texts, and each has to be found in some text of
the field. -/
theorem exists_bind_finds (ht : Target.find schema c.field = .ok t) (hkind : t.kind = .string)
    (ho : o ∈ Operation.finders) (hne : us ≠ []) (mode : CaseMode) :
    ∃ e, ((c.withCase mode).asking o (us.map .text)).bind schema defaultFormat = .ok e ∧
      ∀ row, e.evaluate row = true ↔ ∀ u ∈ us, ∃ v,
        (Row.value row t.index).HasText t.many v ∧ o.FindsIn (mode.apply v) (mode.apply u) := by
  obtain ⟨comparison, hc, -⟩ := Operation.comparison?_of_mem_finders ho
  have ha : o.arity.accepts us.length = true := by
    have haccepts : o.arity.accepts (us.map Value.text).length = true :=
      Operation.accepts_of_ne_nil hc (by simpa using hne)
    rwa [List.length_map] at haccepts
  exact ⟨_, bind_texts_of_find (c := c.withCase mode) ht hkind ha,
    Comparator.evaluate_askScalars_finds ho t.column us⟩

/-- **Folding keeps matches, final sigmas aside.** An operation that finds texts, on a text field,
is bound for any texts in each mode. What matches as it is matches in upper case. It matches in
lower case too if the operation is equality or no operand has a capital sigma, and whenever each
operand is found at a place where its sigmas are final or not as they are in it alone. On a field
that is no list nothing else is enough, unless the operation is to contain. -/
theorem folding_keeps_matches (ht : Target.find schema c.field = .ok t)
    (hkind : t.kind = .string) (ho : o ∈ Operation.finders) (hne : us ≠ []) :
    ∃ e l p, ((c.withCase .default).asking o (us.map .text)).bind schema defaultFormat = .ok e ∧
      ((c.withCase .lower).asking o (us.map .text)).bind schema defaultFormat = .ok l ∧
      ((c.withCase .upper).asking o (us.map .text)).bind schema defaultFormat = .ok p ∧
      ∀ row : Row,
        (e.evaluate row = true → p.evaluate row = true) ∧
        (e.evaluate row = true → (o = .equal ∨ ∀ u ∈ us, 'Σ' ∉ u.toList) →
          l.evaluate row = true) ∧
        ((∀ u ∈ us, ∃ v, (Row.value row t.index).HasText t.many v ∧ o.FindsKept v u) →
          l.evaluate row = true) ∧
        (e.evaluate row = true → t.many = false → o ≠ .contains → l.evaluate row = true →
          ∀ u ∈ us, ∃ v, (Row.value row t.index).HasText t.many v ∧ o.FindsKept v u) := by
  obtain ⟨e, he, hfinds⟩ := exists_bind_finds ht hkind ho hne .default
  obtain ⟨l, hl, hlowered⟩ := exists_bind_finds ht hkind ho hne .lower
  obtain ⟨p, hp, huppered⟩ := exists_bind_finds ht hkind ho hne .upper
  refine ⟨e, l, p, he, hl, hp, fun row => ?_⟩
  rw [hfinds, hlowered, huppered]
  have hlower : (∀ u ∈ us, ∃ v, (Row.value row t.index).HasText t.many v ∧ o.FindsKept v u) →
      ∀ u ∈ us, ∃ v, (Row.value row t.index).HasText t.many v ∧
        o.FindsIn (Case.lower v) (Case.lower u) := by
    intro hkept u hu
    obtain ⟨v, hv, hfound⟩ := hkept u hu
    exact ⟨v, hv, hfound.lower⟩
  refine ⟨?_, ?_, hlower, ?_⟩
  · intro hplain u hu
    obtain ⟨v, hv, hfound⟩ := hplain u hu
    exact ⟨v, hv, hfound.upper⟩
  · intro hplain hsigma
    apply hlower
    intro u hu
    obtain ⟨v, hv, hfound⟩ := hplain u hu
    exact ⟨v, hv, hfound.kept (hsigma.imp_right fun h => h u hu)⟩
  · intro hplain hmany hcontains hfolded u hu
    obtain ⟨v, hv, hfound⟩ := hplain u hu
    obtain ⟨v', hv', hfound'⟩ := hfolded u hu
    obtain rfl := hv.unique hmany hv'
    exact ⟨v, hv, hfound.kept_of_lower hcontains hfound'⟩

/-- A sigma that ends a word of the field as it ends the operand. -/
theorem folding_keeps_matches_word :
    let schema : Schema := ⟨[⟨"Id", .number .i32⟩, ⟨"Name", .optional .string⟩]⟩
    let c : Condition := plain "NAME" .equal []
    let row : Row := [.null, .text "ΑΣ Α"]
    ∃ l p, ((c.withCase .lower).asking .startsWith [.text "ΑΣ"]).bind schema .isoDateTime = .ok l ∧
      ((c.withCase .upper).asking .startsWith [.text "ΑΣ"]).bind schema .isoDateTime = .ok p ∧
      l.evaluate row = true ∧ p.evaluate row = true := by
  intro schema c row
  have hfind : Target.find schema c.field = .ok ⟨1, "Name", .string, .string, false⟩ := by
    simp only [schema, c]
    rfl
  obtain ⟨e, l, p, he, hl, hp, hrows⟩ := @folding_keeps_matches c schema .isoDateTime _ .startsWith
    ["ΑΣ"] hfind rfl (by decide) (List.cons_ne_nil _ _)
  obtain ⟨hupper, -, hlower, -⟩ := hrows row
  refine ⟨l, p, hl, hp, hlower fun u hu => ?_, hupper ?_⟩
  · obtain rfl := List.mem_singleton.1 hu
    have hstay : Case.SigmasStay [] "ΑΣ".toList " Α".toList :=
      Case.lowerAmid_eq_iff.1 (by decide +kernel)
    exact ⟨"ΑΣ Α", rfl, [], " Α".toList, rfl, rfl, hstay⟩
  · have hbound := @bind_texts_of_find (c.withCase .default) schema .isoDateTime _ .startsWith
      ["ΑΣ"] hfind rfl rfl
    obtain rfl := Except.ok.inj (he.symm.trans hbound)
    decide

/-- The sigma of the operand stands within a word of the field. -/
theorem folding_loses_match :
    let schema : Schema := ⟨[⟨"Name", .string⟩]⟩
    let c : Condition := plain "Name" .equal []
    let row : Row := [.text "ΑΣΑ"]
    ∃ e l, ((c.withCase .default).asking .startsWith [.text "ΑΣ"]).bind schema .isoDateTime =
        .ok e ∧
      ((c.withCase .lower).asking .startsWith [.text "ΑΣ"]).bind schema .isoDateTime = .ok l ∧
      e.evaluate row = true ∧ l.evaluate row = false := by
  refine ⟨_, _, rfl, rfl, ?_, ?_⟩ <;> decide +kernel

end Condition

end RecordSearch
