import RecordSearch.Text.Blank
import RecordSearch.Wire.Number
import Mathlib.Algebra.Group.Int.Defs
import Mathlib.Algebra.Group.Nat.Defs

/-!
Whole numbers and their digits. What is written is read back, and a number of digits bounds what
they denote.

* `Digits.value_ofNat`, `Digits.value_padded`: the digits of a number denote it;
* `Digits.value_lt`, `Digits.length_ofNat_le_iff`: how many there are;
* `Digits.toInt?_ofInt`, `readInt64?_intText`: reading what is written.
-/

namespace RecordSearch

/-- A run of characters of one kind ends with the first one of another kind. -/
theorem span_append {p : Char → Bool} {word rest : List Char} (hword : ∀ c ∈ word, p c = true)
    (hrest : ∀ c ∈ rest.head?, p c = false) :
    (word ++ rest).takeWhile p = word ∧ (word ++ rest).dropWhile p = rest := by
  rw [List.takeWhile_append_of_pos hword, List.dropWhile_append_of_pos hword]
  cases rest with
  | nil => simp
  | cons c rest => simp [hrest c rfl]

theorem Text.isBlank_of_isDigit {c : Char} (h : c.isDigit = true) : isBlank c = false := by
  have hc : 48 ≤ c.toNat ∧ c.toNat ≤ 57 := Char.isDigit_iff_toNat.1 h
  simp only [isBlank, Bool.or_eq_false_iff, Bool.and_eq_false_iff, decide_eq_false_iff_not,
    beq_eq_false_iff_ne]
  omega

namespace Digits

theorem value_append (cs ds : List Char) :
    value (cs ++ ds) = 10 ^ ds.length * value cs + value ds := by
  simp only [value, List.foldl_append]
  exact Nat.ofDigitChars_eq_ofDigitChars_zero

theorem value_cons (c : Char) (cs : List Char) :
    value (c :: cs) = 10 ^ cs.length * digit c + value cs := by
  rw [← List.singleton_append, value_append]
  simp [value]

/-- The digits are ten characters in a row. -/
theorem toNat_of_isDigit {c : Char} (h : c.isDigit = true) :
    c.toNat = 48 + digit c ∧ digit c < 10 := by
  have hc : '0'.toNat ≤ c.toNat ∧ c.toNat ≤ '9'.toNat := Char.isDigit_iff_toNat.1 h
  have hzero : '0'.toNat = 48 := rfl
  have hnine : '9'.toNat = 57 := rfl
  unfold digit
  omega

theorem value_lt {cs : List Char} (h : ∀ c ∈ cs, c.isDigit = true) : value cs < 10 ^ cs.length := by
  induction cs with
  | nil => decide
  | cons c cs ih =>
    rw [List.forall_mem_cons] at h
    have hc := (toNat_of_isDigit h.1).2
    have hcs := ih h.2
    rw [value_cons, List.length_cons, Nat.pow_succ]
    calc 10 ^ cs.length * digit c + value cs
        < 10 ^ cs.length * digit c + 10 ^ cs.length := by omega
      _ = 10 ^ cs.length * (digit c + 1) := by rw [Nat.mul_succ]
      _ ≤ 10 ^ cs.length * 10 := Nat.mul_le_mul_left _ hc

theorem value_ofNat (n : Nat) : value (ofNat n) = n := Nat.ofDigitChars_ten_toDigits

theorem isDigit_of_mem_ofNat {n : Nat} {c : Char} (h : c ∈ ofNat n) : c.isDigit = true :=
  Nat.isDigit_of_mem_toDigits (by decide) (by decide) h

theorem ofNat_ne_nil (n : Nat) : ofNat n ≠ [] := Nat.toDigits_ne_nil

theorem length_ofNat_le_iff {n width : Nat} (h : 0 < width) :
    (ofNat n).length ≤ width ↔ n < 10 ^ width :=
  Nat.length_toDigits_le_iff (by decide) h

theorem value_replicate_zero (k : Nat) : value (List.replicate k '0') = 0 := by
  induction k with
  | zero => rfl
  | succ k ih =>
    rw [List.replicate_succ', value_append, ih]
    rfl

theorem isDigit_of_mem_replicate {k : Nat} {c : Char} (h : c ∈ List.replicate k '0') :
    c.isDigit = true := by
  rw [(List.mem_replicate.1 h).2]
  decide

theorem value_padded (width n : Nat) : value (padded width n) = n := by
  rw [padded, value_append, value_replicate_zero, value_ofNat, Nat.mul_zero, Nat.zero_add]

theorem isDigit_of_mem_padded {width n : Nat} {c : Char} (h : c ∈ padded width n) :
    c.isDigit = true := by
  rw [padded, List.mem_append] at h
  cases h with
  | inl h => exact isDigit_of_mem_replicate h
  | inr h => exact isDigit_of_mem_ofNat h

theorem length_padded {width n : Nat} (h : 0 < width) (hn : n < 10 ^ width) :
    (padded width n).length = width := by
  have hlen := (length_ofNat_le_iff h).2 hn
  rw [padded, List.length_append, List.length_replicate]
  omega

theorem le_length_padded (width n : Nat) : width ≤ (padded width n).length := by
  rw [padded, List.length_append, List.length_replicate]
  omega

theorem toNat?_of_isDigit {cs : List Char} (hne : cs ≠ []) (h : ∀ c ∈ cs, c.isDigit = true) :
    toNat? cs = some (value cs) := by
  simp only [toNat?, List.isEmpty_eq_false_iff.2 hne, List.all_eq_true.2 h, Bool.not_false,
    Bool.and_self, if_true]

theorem toNat?_eq_some_iff {cs : List Char} {n : Nat} :
    toNat? cs = some n ↔ cs ≠ [] ∧ (∀ c ∈ cs, c.isDigit = true) ∧ value cs = n := by
  constructor
  · intro h
    rw [toNat?] at h
    split at h
    · next hcs =>
      simp only [Bool.and_eq_true, Bool.not_eq_true', List.isEmpty_eq_false_iff,
        List.all_eq_true] at hcs
      exact ⟨hcs.1, hcs.2, Option.some.inj h⟩
    · cases h
  · rintro ⟨hne, hd, rfl⟩
    exact toNat?_of_isDigit hne hd

/-- Text that starts with a digit, and so neither with a sign nor with a letter. -/
def DigitFirst : List Char → Prop
  | [] => False
  | c :: _ => c.isDigit = true

theorem digitFirst_append {ds : List Char} (hne : ds ≠ []) (hd : ∀ c ∈ ds, c.isDigit = true)
    (rest : List Char) : DigitFirst (ds ++ rest) := by
  match ds, hne with
  | c :: _, _ => exact hd c List.mem_cons_self

theorem digitFirst_of_toNat? {cs : List Char} {n : Nat} (h : toNat? cs = some n) :
    DigitFirst cs := by
  obtain ⟨hne, hd, -⟩ := toNat?_eq_some_iff.1 h
  rw [← List.append_nil cs]
  exact digitFirst_append hne hd []

theorem not_digitFirst_minus (cs : List Char) : ¬DigitFirst ('-' :: cs) := by
  simp [DigitFirst]

theorem not_digitFirst_plus (cs : List Char) : ¬DigitFirst ('+' :: cs) := by
  simp [DigitFirst]

theorem toInt?_of_digitFirst {cs : List Char} (h : DigitFirst cs) :
    toInt? cs = (toNat? cs).map fun n : Nat => (n : Int) := by
  rw [toInt?]
  · cases toNat? cs <;> rfl
  · rintro ds rfl
    exact not_digitFirst_minus ds h
  · rintro ds rfl
    exact not_digitFirst_plus ds h

theorem toInt?_minus (cs : List Char) :
    toInt? ('-' :: cs) = (toNat? cs).map fun n : Nat => -(n : Int) := by
  rw [toInt?]
  cases toNat? cs <;> rfl

/-- A number without a sign is also an integer. -/
theorem toInt?_of_toNat? {cs : List Char} {n : Nat} (h : toNat? cs = some n) :
    toInt? cs = some (n : Int) := by
  rw [toInt?_of_digitFirst (digitFirst_of_toNat? h), h, Option.map_some]

theorem toNat?_ofNat (n : Nat) : toNat? (ofNat n) = some n := by
  rw [toNat?_of_isDigit (ofNat_ne_nil n) fun _ => isDigit_of_mem_ofNat, value_ofNat]

theorem toInt?_ofInt (n : Int) : toInt? (ofInt n) = some n := by
  rw [ofInt]
  split
  · next h =>
    rw [toInt?_minus, toNat?_ofNat, Option.map_some]
    congr 1
    omega
  · next h =>
    rw [toInt?_of_toNat? (toNat?_ofNat _)]
    congr 1
    omega

theorem toInt?_intText (n : Int) : toInt? (intText n).toList = some n := by
  rw [intText, String.toList_ofList, toInt?_ofInt]

theorem toNat?_natText (n : Nat) : toNat? (natText n).toList = some n := by
  rw [natText, String.toList_ofList, toNat?_ofNat]

end Digits

theorem readInt64?_of_toInt? {s : String} {n : Int} (h : Digits.toInt? s.toList = some n) :
    readInt64? s = if -2 ^ 63 ≤ n ∧ n < 2 ^ 63 then some (Int64.ofInt n) else none := by
  rw [readInt64?, h, Option.bind_some]
  rfl

theorem readUInt64?_of_toNat? {s : String} {n : Nat} (h : Digits.toNat? s.toList = some n) :
    readUInt64? s = if n < 2 ^ 64 then some (UInt64.ofNat n) else none := by
  rw [readUInt64?, h, Option.bind_some]
  rfl

theorem readInt64?_intText {n : Int} (hlow : -2 ^ 63 ≤ n) (hhigh : n < 2 ^ 63) :
    readInt64? (Digits.intText n) = some (Int64.ofInt n) := by
  rw [readInt64?_of_toInt? (Digits.toInt?_intText n), if_pos ⟨hlow, hhigh⟩]

theorem toInt?_of_readInt64? {s : String} {i : Int64} (h : readInt64? s = some i) :
    Digits.toInt? s.toList = some i.toInt := by
  obtain ⟨n, hn, h⟩ := Option.bind_eq_some_iff.1 h
  split at h
  · next hrange =>
    rw [hn, ← Option.some.inj h, Int64.toInt_ofInt_of_le hrange.1 hrange.2]
  · cases h

theorem toNat?_of_readUInt64? {s : String} {u : UInt64} (h : readUInt64? s = some u) :
    Digits.toNat? s.toList = some u.toNat := by
  obtain ⟨n, hn, h⟩ := Option.bind_eq_some_iff.1 h
  split at h
  · next hrange =>
    rw [hn, ← Option.some.inj h, UInt64.toNat_ofNat_of_lt' hrange]
  · cases h

end RecordSearch
