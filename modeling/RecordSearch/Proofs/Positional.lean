import RecordSearch.Proofs.Digits
import RecordSearch.Proofs.Rounding
import Mathlib.Data.List.TakeWhile

/-!
Positional numerals, digits with a point that is left out when no digit stands behind it, and what
the readers of numbers make of one with a sign.

* `Positional.toNat?_chars_eq_some_iff`: only without a point it is a whole number;
* `Positional.decimal?_chars`: with few enough digits it is a decimal with just these;
* `Positional.floating?_chars`: it is rounded as the quotient that it denotes.
-/

namespace RecordSearch

open Digits

structure Positional where
  whole : List Char
  places : List Char
  whole_ne_nil : whole ≠ []
  isDigit_whole : ∀ c ∈ whole, c.isDigit = true
  isDigit_places : ∀ c ∈ places, c.isDigit = true

/-- What stands in front of a numeral. -/
def signChars (negative : Bool) : List Char := if negative then ['-'] else []

theorem signChars_append_inj {a b : Bool} {cs ds : List Char} (hcs : DigitFirst cs)
    (hds : DigitFirst ds) (h : signChars a ++ cs = signChars b ++ ds) : a = b ∧ cs = ds := by
  cases a with
  | true =>
    cases b with
    | true => exact ⟨rfl, (List.cons.inj h).2⟩
    | false =>
      have hminus : '-' :: cs = ds := h
      exact absurd (hminus ▸ hds) (not_digitFirst_minus cs)
  | false =>
    cases b with
    | true =>
      have hminus : cs = '-' :: ds := h
      exact absurd (hminus ▸ hcs) (not_digitFirst_minus ds)
    | false => exact ⟨rfl, h⟩

section Signs

variable (negative : Bool) {cs : List Char}

theorem Digits.toInt?_signChars (h : DigitFirst cs) :
    toInt? (signChars negative ++ cs) =
      (toNat? cs).map fun n : Nat => Floating.signed negative n := by
  cases negative with
  | true => exact toInt?_minus cs
  | false => exact toInt?_of_digitFirst h

theorem Decimal.readPlain?_signChars (h : DigitFirst cs) :
    readPlain? (signChars negative ++ cs) = readUnsigned? negative cs := by
  cases negative with
  | true => rfl
  | false =>
    rw [signChars, if_neg (by decide), List.nil_append, readPlain?]
    · rintro ds rfl
      exact not_digitFirst_minus ds h
    · rintro ds rfl
      exact not_digitFirst_plus ds h

theorem Floating.ofText?_signChars {f : BinaryFormat} (h : DigitFirst cs) :
    (ofText? (String.ofList (signChars negative ++ cs)) : Option (Floating f)) =
      readUnsigned? negative cs := by
  rw [ofText?, String.toList_ofList]
  cases negative with
  | true => rfl
  | false =>
    rw [signChars, if_neg (by decide), List.nil_append]
    split
    · exact absurd h (not_digitFirst_minus _)
    · exact absurd h (not_digitFirst_plus _)
    · rfl

/-- What starts with a digit is not the name of a value that is no finite number. -/
theorem Floating.readUnsigned?_of_digitFirst {f : BinaryFormat} (h : DigitFirst cs) :
    (readUnsigned? negative cs : Option (Floating f)) =
      (Numeral.read? cs).map (ofNumeral negative) := by
  match cs, h with
  | c :: cs, h =>
    have hname : ∀ (name : String) (a : Char), name.toList.head? = some a → a.isDigit = false →
        (Ascii.lower (String.ofList (c :: cs)) == name) = false := by
      intro name a hhead hletter
      rw [beq_eq_false_iff_ne]
      rintro rfl
      rw [Ascii.lower, String.toList_ofList, String.toList_ofList, List.map_cons, List.head?_cons,
        Ascii.toLower_of_isDigit h] at hhead
      obtain rfl := Option.some.inj hhead
      exact Bool.false_ne_true (hletter.symm.trans h)
    simp only [readUnsigned?, hname "inf" 'i' rfl rfl, hname "infinity" 'i' rfl rfl,
      hname "nan" 'n' rfl rfl, Bool.or_self, Bool.false_eq_true, if_false]

end Signs

/-- A run of digits that fits is taken as it is. -/
theorem Decimal.readDigits_append {ds : List Char} (rest : List Char)
    (hd : ∀ c ∈ ds, c.isDigit = true) :
    ∀ {point seen : Bool} {mantissa scale : Nat},
      10 ^ ds.length * mantissa + Digits.value ds < 2 ^ 96 →
      (point = true → scale + ds.length ≤ 28) →
      readDigits point seen mantissa scale (ds ++ rest) =
        readDigits point (seen || !ds.isEmpty) (10 ^ ds.length * mantissa + Digits.value ds)
          (if point then scale + ds.length else scale) rest := by
  induction ds with
  | nil =>
    intro point seen mantissa scale _ _
    simp [Digits.value]
  | cons c ds ih =>
    intro point seen mantissa scale hfit hscale
    have hc : c.isDigit = true := hd c List.mem_cons_self
    have htotal : 10 ^ (c :: ds).length * mantissa + Digits.value (c :: ds) =
        10 ^ ds.length * (10 * mantissa + Digits.digit c) + Digits.value ds := by
      rw [Digits.value_cons, List.length_cons, Nat.pow_succ, Nat.mul_add, ← Nat.mul_assoc,
        Nat.add_assoc]
    rw [htotal] at hfit ⊢
    have hgrown : 10 * mantissa + Digits.digit c < Nat.pow 2 96 := by
      rw [Nat.pow_eq]
      have := Nat.le_mul_of_pos_left (10 * mantissa + Digits.digit c)
        (Nat.pow_pos (n := ds.length) (by decide : 0 < 10))
      omega
    have hplace : (point && (scale == 28 ||
        decide (Nat.pow 2 96 ≤ 10 * mantissa + Digits.digit c))) = false := by
      cases point with
      | false => rfl
      | true =>
        have := hscale rfl
        rw [List.length_cons] at this
        have hne : scale ≠ 28 := by omega
        simp only [Bool.true_and, Bool.or_eq_false_iff, beq_eq_false_iff_ne,
          decide_eq_false_iff_not]
        exact ⟨hne, Nat.not_le.2 hgrown⟩
    rw [List.cons_append, readDigits, if_pos hc]
    simp only [hplace, Bool.false_eq_true, if_false, if_pos hgrown]
    rw [ih (fun a ha => hd a (List.mem_cons_of_mem _ ha)) hfit]
    · cases point <;> simp [Nat.add_comm, Nat.add_left_comm]
    · intro hp
      have := hscale hp
      rw [List.length_cons] at this
      simp only [hp, if_true]
      omega

namespace Magnitude

variable {f : BinaryFormat}

theorem nearest?_zero (den : Nat) : nearest? f ⟨0, den⟩ = nearest? f ⟨0, 1⟩ := by
  have hround : ∀ d e, (Ratio.scale ⟨0, d⟩ 2 e).nearestEven = 0 := by
    intro d e
    rw [Ratio.scale]
    split <;> simp [Ratio.nearestEven]
  simp only [nearest?, hround, if_true]

/-- Numerals of moderate size are rounded as the quotients that they are. -/
theorem nearestNumeral?_places {digits places : Nat} (hd : digits < 10 ^ 400)
    (hp : places ≤ 400) :
    nearestNumeral? f ⟨digits, -(places : Int)⟩ = nearest? f ⟨digits, 10 ^ places⟩ := by
  have hlen := (Digits.length_ofNat_le_iff (by decide)).2 hd
  by_cases hzero : digits = 0
  · rw [nearestNumeral?, if_pos (.inl hzero), hzero, nearest?_zero (10 ^ places)]
  · have hratio : (Ratio.ofNat digits).scale 10 (-(places : Int)) = ⟨digits, 10 ^ places⟩ := by
      rw [Ratio.scale, Ratio.ofNat]
      split
      · simp
      · next h =>
        obtain rfl : places = 0 := by omega
        simp
    simp only [nearestNumeral?]
    rw [if_neg (by omega), if_neg (by omega), hratio]

end Magnitude

namespace Positional

def chars (p : Positional) : List Char :=
  p.whole ++ if p.places = [] then [] else '.' :: p.places

/-- The digits on both sides of the point as one number. -/
def value (p : Positional) : Nat := Digits.value (p.whole ++ p.places)

theorem digitFirst_chars (p : Positional) : DigitFirst p.chars :=
  digitFirst_append p.whole_ne_nil p.isDigit_whole _

theorem toNat?_chars_eq_some_iff {p : Positional} {n : Nat} :
    toNat? p.chars = some n ↔ p.places = [] ∧ p.value = n := by
  by_cases hp : p.places = []
  · rw [chars, if_pos hp, List.append_nil, value, hp, List.append_nil,
      toNat?_of_isDigit p.whole_ne_nil p.isDigit_whole, Option.some.injEq]
    exact (and_iff_right rfl).symm
  · rw [chars, if_neg hp, toNat?_eq_some_iff]
    constructor
    · rintro ⟨-, hd, -⟩
      have := hd '.' (by simp)
      simp at this
    · intro h
      exact absurd h.1 hp

theorem readDigits_chars {p : Positional} (hfit : p.value < 2 ^ 96) (hlen : p.places.length ≤ 28) :
    Decimal.readDigits false false 0 0 p.chars = some (p.value, p.places.length) := by
  rw [value, Digits.value_append] at hfit ⊢
  have hwhole : Digits.value p.whole < 2 ^ 96 := by
    have := Nat.le_mul_of_pos_left (Digits.value p.whole)
      (Nat.pow_pos (n := p.places.length) (by decide : 0 < 10))
    omega
  rw [chars, Decimal.readDigits_append _ p.isDigit_whole (by simpa using hwhole) (by simp)]
  simp only [Nat.mul_zero, Nat.zero_add, Bool.false_or, List.isEmpty_eq_false_iff.2 p.whole_ne_nil,
    Bool.not_false, Bool.false_eq_true, if_false]
  by_cases hp : p.places = []
  · simp [hp, Decimal.readDigits, Digits.value]
  · have hread : Decimal.readDigits true true (Digits.value p.whole) 0 (p.places ++ []) = _ :=
      Decimal.readDigits_append [] p.isDigit_places hfit (by simpa using hlen)
    rw [List.append_nil] at hread
    rw [if_neg hp, Decimal.readDigits]
    simp [hread, Decimal.readDigits]

/-- Zero has no sign in what is read. -/
theorem decimal?_chars (negative : Bool) {p : Positional} (hfit : p.value < 2 ^ 96)
    (hlen : p.places.length ≤ 28) :
    Decimal.ofText? (String.ofList (signChars negative ++ p.chars)) =
      some ⟨negative && p.value != 0, p.value, p.places.length, hfit, hlen⟩ := by
  have hread : Decimal.readUnsigned? negative p.chars =
      some ⟨negative && p.value != 0, p.value, p.places.length, hfit, hlen⟩ := by
    rw [Decimal.readUnsigned?, readDigits_chars hfit hlen, Option.bind_some]
    exact dif_pos ⟨hfit, hlen⟩
  rw [Decimal.ofText?, String.toList_ofList, Decimal.readPlain?_signChars negative
    p.digitFirst_chars, hread, Option.some_or]

theorem read?_chars (p : Positional) :
    Numeral.read? p.chars = some ⟨p.value, -p.places.length⟩ := by
  have hplaces := List.takeWhile_eq_self_iff.2 p.isDigit_places
  have hnone := List.dropWhile_eq_nil_iff.2 p.isDigit_places
  have hne := p.whole_ne_nil
  simp only [Numeral.read?, chars, value, List.takeWhile_append_of_pos p.isDigit_whole,
    List.dropWhile_append_of_pos p.isDigit_whole]
  by_cases h : p.places = []
  · simp [h, Numeral.readExponent?, hne]
  · rw [if_neg h]
    simp [hplaces, hnone, Numeral.readExponent?, hne]

theorem value_and_length_of_chars {p q : Positional} (h : p.chars = q.chars) :
    p.value = q.value ∧ p.places.length = q.places.length := by
  have hread := read?_chars p
  rw [h, read?_chars q, Option.some.injEq, Numeral.mk.injEq] at hread
  omega

theorem floating?_chars {f : BinaryFormat} (negative : Bool) {p : Positional}
    (hfit : p.value < 10 ^ 400) (hlen : p.places.length ≤ 400) :
    (Floating.ofText? (String.ofList (signChars negative ++ p.chars)) : Option (Floating f)) =
      some (Floating.ofRatio negative ⟨p.value, 10 ^ p.places.length⟩) := by
  rw [Floating.ofText?_signChars negative p.digitFirst_chars,
    Floating.readUnsigned?_of_digitFirst negative p.digitFirst_chars, read?_chars, Option.map_some,
    Floating.ofNumeral, Magnitude.nearestNumeral?_places hfit hlen, Floating.ofRatio]

end Positional

end RecordSearch
