import RecordSearch.Proofs.DateText
import RecordSearch.Wire.Search

/-!
The ways to write a code: an integer, its digits in a string, or the name that belongs to it in any
case, the last two perhaps with blanks around. All of them are read alike.

* `Text.trim_of_isPadded`: what trimming leaves of a padded text;
* `readCode_of_spells`: what a spelling is read as;
* `Operation.toOption_ofJson` and its likes: the same for each kind of code.
-/

namespace RecordSearch

namespace Ascii

variable {s t : String}

/-- What holds of the small letters of a name holds of those of the name in another case. -/
theorem forall_toLower_of_same {P : Char → Prop} (h : same s t = true)
    (ht : ∀ c ∈ t.toList, P c.toLower) : ∀ c ∈ s.toList, P c.toLower := by
  have hlower : s.toList.map Char.toLower = t.toList.map Char.toLower :=
    String.ofList_injective (same_iff.1 h)
  intro c hc
  have hmem : c.toLower ∈ t.toList.map Char.toLower := hlower ▸ List.mem_map_of_mem hc
  obtain ⟨d, hd, heq⟩ := List.mem_map.1 hmem
  exact heq ▸ ht d hd

end Ascii

namespace Text

variable {s t : String} {c : Char}

/-- Nothing but blanks is added in front of the text and behind it. -/
def IsPadded (s t : String) : Prop :=
  ∃ before after, (∀ c ∈ before, isBlank c = true) ∧ (∀ c ∈ after, isBlank c = true) ∧
    s.toList = before ++ (t.toList ++ after)

theorem trim_of_isPadded (h : IsPadded s t) (ht : ∀ c ∈ t.toList, isBlank c = false) :
    trim s.toList = t.toList := by
  obtain ⟨before, after, hbefore, hafter, hs⟩ := h
  rw [trim, hs, trimLeft_append hbefore]
  cases htext : t.toList with
  | nil =>
    have hblank := trimLeft_append hafter []
    rw [List.append_nil] at hblank
    rw [List.nil_append, hblank]
    rfl
  | cons c cs =>
    rw [htext] at ht
    rw [List.cons_append, trimLeft_cons (ht c List.mem_cons_self)]
    exact trimRight_append hafter ht

/-- A blank is no letter. -/
theorem isBlank_of_isLower_toLower (h : c.toLower.isLower = true) : isBlank c = false := by
  rw [← Bool.not_eq_true]
  intro hblank
  have hbounds : ¬(65 ≤ c.toNat ∧ c.toNat ≤ 90) ∧ ¬(97 ≤ c.toNat ∧ c.toNat ≤ 122) := by
    simp [isBlank] at hblank
    omega
  rw [Ascii.toLower_of_not_isUpper hbounds.1] at h
  obtain ⟨hlow, hhigh⟩ := Bool.and_eq_true_iff.1 h
  exact hbounds.2 ⟨UInt32.le_iff_toNat_le.1 (of_decide_eq_true hlow),
    UInt32.le_iff_toNat_le.1 (of_decide_eq_true hhigh)⟩

end Text

namespace Digits

variable {cs : List Char} {n : Int}

/-- An integer starts with a digit or a sign. -/
theorem exists_of_toInt? (h : toInt? cs = some n) :
    ∃ c ds, cs = c :: ds ∧ (c.isDigit = true ∨ c = '-' ∨ c = '+') ∧
      ∀ d ∈ ds, d.isDigit = true := by
  have hdigits : ∀ {ds : List Char} {f : Int → Int},
      (Option.map f do let m ← toNat? ds; pure (m : Int)) = some n →
        ds ≠ [] ∧ ∀ d ∈ ds, d.isDigit = true := by
    intro ds f hds
    cases hm : toNat? ds with
    | none =>
      rw [hm] at hds
      cases hds
    | some m =>
      obtain ⟨hne, hd, -⟩ := toNat?_eq_some_iff.1 hm
      exact ⟨hne, hd⟩
  rw [toInt?.eq_def] at h
  split at h
  · exact ⟨_, _, rfl, .inr (.inl rfl), (hdigits h).2⟩
  · exact ⟨_, _, rfl, .inr (.inr rfl), (hdigits h).2⟩
  · obtain ⟨hne, hd⟩ := hdigits h
    obtain ⟨c, ds, rfl⟩ := List.exists_cons_of_ne_nil hne
    obtain ⟨hc, hds⟩ := List.forall_mem_cons.1 hd
    exact ⟨c, ds, rfl, .inl hc, hds⟩

theorem isBlank_of_toInt? (h : toInt? cs = some n) : ∀ c ∈ cs, Text.isBlank c = false := by
  obtain ⟨c, ds, rfl, hc, hds⟩ := exists_of_toInt? h
  refine List.forall_mem_cons.2 ⟨?_, fun d hd => Text.isBlank_of_isDigit (hds d hd)⟩
  rcases hc with hc | rfl | rfl
  · exact Text.isBlank_of_isDigit hc
  · rfl
  · rfl

end Digits

/-- Codes and names by which the members of a list are told apart. -/
structure IsCatalogue {α : Type} (all : List α) (code : α → Int) (name : α → String) : Prop where
  code_injective : ∀ a ∈ all, ∀ b ∈ all, code a = code b → a = b
  name_injective : ∀ a ∈ all, ∀ b ∈ all, Ascii.same (name a) (name b) = true → a = b
  code_bounded : ∀ a ∈ all, -2 ^ 63 ≤ code a ∧ code a < 2 ^ 63
  name_letters : ∀ a ∈ all, (name a).toList.all (fun c => c.toLower.isLower) = true

/-- A value that denotes the code, by itself or by a name that the code has. -/
inductive Json.Spells (names : List (Int × String)) (n : Int) : Json → Prop
  | number {t : String} (h : Digits.toInt? t.toList = some n) : Spells names n (.number t)
  | digits {s t : String} (hs : Text.IsPadded s t) (h : Digits.toInt? t.toList = some n) :
      Spells names n (.string s)
  | name {s t name : String} (hs : Text.IsPadded s t) (hname : (n, name) ∈ names)
      (h : Ascii.same t name = true) : Spells names n (.string s)

section Reading

variable {α : Type} {all : List α} {code : α → Int} {name : α → String} {n : Int} {s t : String}

theorem find?_eq_some_of_unique {p : α → Bool} {a : α} (ha : a ∈ all) (hp : p a = true)
    (hunique : ∀ b ∈ all, p b = true → b = a) : all.find? p = some a := by
  obtain ⟨b, hb⟩ : ∃ b, all.find? p = some b := by
    rw [← Option.isSome_iff_exists, List.find?_isSome]
    exact ⟨a, ha, hp⟩
  rw [hb, hunique b (List.mem_of_find?_eq_some hb) (List.find?_some hb)]

namespace IsCatalogue

variable (h : IsCatalogue all code name)

include h

theorem find?_name {a : α} (ha : a ∈ all) (hs : Ascii.same s (name a) = true) :
    all.find? (fun b => Ascii.same (name b) s) = some a :=
  find?_eq_some_of_unique ha (Ascii.same_comm s (name a) ▸ hs) fun b hb hbs =>
    h.name_injective b hb a ha (Ascii.same_trans hbs hs)

theorem find?_code {a : α} (ha : a ∈ all) : all.find? (fun b => code b == code a) = some a :=
  find?_eq_some_of_unique ha (beq_self_eq_true _) fun b hb hcode =>
    h.code_injective b hb a ha (beq_iff_eq.1 hcode)

theorem isLower_of_same {a : α} (ha : a ∈ all) (hs : Ascii.same s (name a) = true) :
    ∀ c ∈ s.toList, c.toLower.isLower = true :=
  Ascii.forall_toLower_of_same (P := fun c => c.isLower = true) hs
    (List.all_eq_true.1 (h.name_letters a ha))

/-- No name is an integer. -/
theorem find?_name_of_toInt? (hs : Digits.toInt? s.toList = some n) :
    all.find? (fun b => Ascii.same (name b) s) = none := by
  obtain ⟨c, cs, hcs, hc, -⟩ := Digits.exists_of_toInt? hs
  rw [List.find?_eq_none]
  intro a ha hname
  have hletter := h.isLower_of_same ha (Ascii.same_comm (name a) s ▸ hname) c
    (hcs ▸ List.mem_cons_self)
  rcases hc with hc | rfl | rfl
  · rw [Ascii.toLower_of_isDigit hc] at hletter
    have hlow := of_decide_eq_true (Bool.and_eq_true_iff.1 hletter).1
    have hhigh := of_decide_eq_true (Bool.and_eq_true_iff.1 hc).2
    exact absurd (UInt32.le_trans hlow hhigh) (by decide)
  · cases hletter
  · cases hletter

theorem bind_readInt64? (hs : Digits.toInt? s.toList = some n) :
    ((readInt64? s).bind fun i => all.find? (fun a => code a == i.toInt)) =
      all.find? (fun a => code a == n) := by
  rw [readInt64?_of_toInt? hs]
  split
  · next hrange => rw [Option.bind_some, Int64.toInt_ofInt_of_le hrange.1 hrange.2]
  · next hrange =>
    rw [Option.bind_none, eq_comm, List.find?_eq_none]
    intro a ha hcode
    exact hrange (beq_iff_eq.1 hcode ▸ h.code_bounded a ha)

/-- Every spelling of a code is read as what has the code, if anything. -/
theorem readCode_of_spells {kind : CodeKind} {j : Json}
    (hj : j.Spells (all.map fun a => (code a, name a)) n) :
    (readCode kind (fun n => all.find? (fun a => code a == n))
      (fun s => all.find? (fun a => Ascii.same (name a) s)) j).toOption =
      all.find? (fun a => code a == n) := by
  cases hj with
  | number ht =>
    simp only [readCode, h.bind_readInt64? ht]
    cases all.find? fun a => code a == n <;> rfl
  | @digits s t hs ht =>
    have htrim : String.ofList (Text.trim s.toList) = t := by
      rw [Text.trim_of_isPadded hs (Digits.isBlank_of_toInt? ht), String.ofList_toList]
    simp only [readCode, htrim, h.find?_name_of_toInt? ht, Option.none_or, h.bind_readInt64? ht]
    cases all.find? fun a => code a == n <;> rfl
  | @name s t word hs hname ht =>
    obtain ⟨a, ha, heq⟩ := List.mem_map.1 hname
    obtain ⟨rfl, rfl⟩ := Prod.mk.inj heq
    have htrim : String.ofList (Text.trim s.toList) = t := by
      rw [Text.trim_of_isPadded hs fun c hc =>
        Text.isBlank_of_isLower_toLower (h.isLower_of_same ha ht c hc), String.ofList_toList]
    simp only [readCode, htrim, h.find?_name ha ht, h.find?_code ha, Option.some_or]
    rfl

end IsCatalogue

end Reading

/-- The codes of a kind with their names. -/
def CodeKind.names : CodeKind → List (Int × String)
  | operation => Operation.all.map fun o => (o.code, o.name)
  | connective => Connective.all.map fun c => (c.code, c.name)
  | case => CaseMode.all.map fun m => (m.code, m.name)
  | format => DateFormat.all.map fun f => (f.code, f.name)

theorem Operation.isCatalogue : IsCatalogue all code name where
  code_injective := by decide +kernel
  name_injective := by decide +kernel
  code_bounded := by
    intro o _
    cases o <;> decide
  name_letters := by decide +kernel

theorem Connective.isCatalogue : IsCatalogue all code name where
  code_injective := by decide +kernel
  name_injective := by decide +kernel
  code_bounded := by
    intro c _
    cases c <;> decide
  name_letters := by decide +kernel

theorem CaseMode.isCatalogue : IsCatalogue all code name where
  code_injective := by decide +kernel
  name_injective := by decide +kernel
  code_bounded := by
    intro m _
    cases m <;> decide
  name_letters := by decide +kernel

theorem DateFormat.isCatalogue : IsCatalogue all code name where
  code_injective := by decide +kernel
  name_injective := by decide +kernel
  code_bounded := by
    intro f _
    cases f <;> decide
  name_letters := by decide +kernel

section Codes

variable {n : Int} {j : Json}

theorem Connective.toOption_ofJson (h : j.Spells CodeKind.connective.names n) :
    (ofJson j).toOption = ofCode? n :=
  isCatalogue.readCode_of_spells h

theorem CaseMode.toOption_ofJson (h : j.Spells CodeKind.case.names n) :
    (ofJson j).toOption = ofCode? n :=
  isCatalogue.readCode_of_spells h

theorem DateFormat.toOption_ofJson (h : j.Spells CodeKind.format.names n) :
    (ofJson j).toOption = ofCode? n :=
  isCatalogue.readCode_of_spells h

/-- An integer without an operation is an error of its own, but an error all the same. -/
theorem Operation.toOption_ofJson (h : j.Spells CodeKind.operation.names n) :
    (ofJson j).toOption = ofCode? n := by
  have hcode : (readCode .operation ofCode? ofName? j).toOption = ofCode? n :=
    isCatalogue.readCode_of_spells h
  cases h with
  | @number t ht =>
    cases hi : readInt64? t with
    | none => simp only [ofJson, hi, hcode]
    | some i =>
      obtain rfl : i.toInt = n := Option.some.inj ((toInt?_of_readInt64? hi).symm.trans ht)
      simp only [ofJson, hi]
      cases ofCode? i.toInt <;> rfl
  | digits | name => exact hcode

end Codes

end RecordSearch
