import RecordSearch.Json.Printer
import RecordSearch.Json.Reader
import RecordSearch.Proofs.NumberText

/-!
Strings and numerals of JSON read from their own text, between the characters of other values.

* `Json.readString_quote`: a string, escaped one character at a time;
* `Json.readNumber_text`: a numeral, up to a character that may follow a value.
-/

namespace RecordSearch.Json

section Strings

variable (lone : Option Char) {fuel : Nat}

theorem hexValue?_digitChar : ∀ d < 16, hexValue? (Nat.digitChar d) = some d := by
  decide

/-- The escape of a control character, with two zeros in front. -/
theorem readCodePoint_control {n : Nat} (h : n < 32) (rest : List Char) :
    readCodePoint lone ('0' :: '0' :: Nat.digitChar (n / 16) :: Nat.digitChar (n % 16) :: rest) =
      some (Char.ofNat n, rest) := by
  have hzero : hexValue? '0' = some 0 := rfl
  have hhigh := hexValue?_digitChar (n / 16) (by omega)
  have hlow := hexValue?_digitChar (n % 16) (by omega)
  have hunit : (0 * 16 + 0) * 256 + n / 16 * 16 + n % 16 = n := by omega
  have hread : readUnit ('0' :: '0' :: Nat.digitChar (n / 16) :: Nat.digitChar (n % 16) :: rest) =
      some (n, rest) := by
    simp only [readUnit, hzero, hhigh, hlow, Option.bind_eq_bind, Option.bind_some, Option.pure_def,
      hunit]
  have hplain : n < 0xD800 ∨ 0xDFFF < n := .inl (by omega)
  simp only [readCodePoint, hread, Option.bind_eq_bind, Option.bind_some, if_pos hplain]

theorem readEscape_control {c : Char} (h : c.toNat < 32) (rest : List Char) :
    readEscape lone
        ('u' :: '0' :: '0' :: Nat.digitChar (c.toNat / 16) :: Nat.digitChar (c.toNat % 16) :: rest) =
      some (c, rest) := by
  rw [readEscape]
  exact (readCodePoint_control lone h rest).trans (by rw [Char.ofNat_toNat])

theorem readCharacters_backslash {cs rest : List Char} {c : Char}
    (h : readEscape lone cs = some (c, rest)) :
    readCharacters lone (fuel + 1) ('\\' :: cs) =
      (readCharacters lone fuel rest).map fun p => (c :: p.1, p.2) := by
  rw [readCharacters, if_neg (by decide), if_pos (by decide), h]
  simp only [Option.bind_eq_bind, Option.bind_some]
  cases readCharacters lone fuel rest <;> rfl

theorem readCharacters_plain {c : Char} (hquote : c ≠ '"') (hbackslash : c ≠ '\\')
    (hcontrol : 32 ≤ c.toNat) (rest : List Char) :
    readCharacters lone (fuel + 1) (c :: rest) =
      (readCharacters lone fuel rest).map fun p => (c :: p.1, p.2) := by
  rw [readCharacters]
  simp only [beq_iff_eq, hquote, hbackslash, Nat.not_lt.2 hcontrol, if_false]
  cases readCharacters lone fuel rest <;> rfl

/-- Each character takes one step, escaped or not. -/
theorem readCharacters_escape (c : Char) (rest : List Char) :
    readCharacters lone (fuel + 1) (escape c ++ rest) =
      (readCharacters lone fuel rest).map fun p => (c :: p.1, p.2) := by
  unfold escape
  split
  · exact readCharacters_backslash lone rfl
  · exact readCharacters_backslash lone rfl
  · exact readCharacters_backslash lone rfl
  · exact readCharacters_backslash lone rfl
  · exact readCharacters_backslash lone rfl
  · next hquote hbackslash _ _ _ =>
    split_ifs with h8 h12 hcontrol
    · obtain rfl : c = Char.ofNat 8 := by rw [← h8, Char.ofNat_toNat]
      exact readCharacters_backslash lone rfl
    · obtain rfl : c = Char.ofNat 12 := by rw [← h12, Char.ofNat_toNat]
      exact readCharacters_backslash lone rfl
    · exact readCharacters_backslash lone (readEscape_control lone hcontrol rest)
    · exact readCharacters_plain lone hquote hbackslash (Nat.not_lt.1 hcontrol) rest

theorem readCharacters_flatMap_escape {cs : List Char} (hfuel : cs.length < fuel)
    (rest : List Char) :
    readCharacters lone fuel (cs.flatMap escape ++ '"' :: rest) = some (cs, rest) := by
  induction cs generalizing fuel with
  | nil =>
    cases fuel with
    | zero => exact absurd hfuel (Nat.not_lt_zero _)
    | succ fuel => rfl
  | cons c cs ih =>
    cases fuel with
    | zero => exact absurd hfuel (Nat.not_lt_zero _)
    | succ fuel =>
      rw [List.flatMap_cons, List.append_assoc, readCharacters_escape,
        ih (Nat.lt_of_succ_lt_succ hfuel)]
      rfl

theorem toList_quote (s : String) : (quote s).toList = '"' :: (s.toList.flatMap escape ++ ['"']) := by
  rw [quote, String.toList_ofList]

theorem readString_quote {s : String} (hfuel : s.length < fuel) (rest : List Char) :
    readString lone fuel ((quote s).toList ++ rest) = some (s, rest) := by
  rw [← String.length_toList] at hfuel
  rw [toList_quote, List.cons_append, List.append_assoc, List.singleton_append, readString,
    readCharacters_flatMap_escape lone hfuel]
  exact congrArg (fun t => some (t, rest)) String.ofList_toList

theorem length_escape_pos (c : Char) : 0 < (escape c).length := by
  unfold escape
  split <;> try exact Nat.succ_pos _
  split_ifs <;> exact Nat.succ_pos _

end Strings

/-- What may stand behind a value: a comma, a closing bracket or nothing. -/
def EndsValue (rest : List Char) : Prop :=
  ∀ c ∈ rest.head?, c = ',' ∨ c = ']' ∨ c = '\x7d'

/-- Digits with a sign in front and perhaps a point between, where a zero at the front is the whole
of what stands before the point. -/
def IsNumeral (t : String) : Prop :=
  ∃ negative, ∃ p : Positional, (p.whole.head? = some '0' → p.whole = ['0']) ∧
    t = String.ofList (signChars negative ++ p.chars)

section Numbers

variable {rest : List Char}

theorem EndsValue.notDigit (h : EndsValue rest) : ∀ c ∈ rest.head?, c.isDigit = false := by
  intro c hc
  rcases h c hc with rfl | rfl | rfl <;> rfl

theorem readDigits_append {word : List Char} (hne : word ≠ [])
    (hword : ∀ c ∈ word, c.isDigit = true) (hrest : ∀ c ∈ rest.head?, c.isDigit = false) :
    readDigits (word ++ rest) = some (word, rest) := by
  obtain ⟨htake, hdrop⟩ := span_append hword hrest
  simp only [readDigits, htake, hdrop, List.isEmpty_eq_false_iff.2 hne, Bool.false_eq_true, if_false]

theorem readWhole_append {p : Positional} (hzero : p.whole.head? = some '0' → p.whole = ['0'])
    (hrest : ∀ c ∈ rest.head?, c.isDigit = false) :
    readWhole (p.whole ++ rest) = some (p.whole, rest) := by
  rw [readWhole, readDigits_append p.whole_ne_nil p.isDigit_whole hrest]
  simp only [Option.bind_eq_bind, Option.bind_some]
  split
  · next c tail hwhole =>
    rw [hwhole] at hzero
    cases (List.cons.inj (hzero rfl)).2
  · rfl

theorem readFraction_append (p : Positional) (h : EndsValue rest) :
    readFraction ((if p.places = [] then [] else '.' :: p.places) ++ rest) =
      some (if p.places = [] then [] else '.' :: p.places, rest) := by
  by_cases hplaces : p.places = []
  · rw [if_pos hplaces, List.nil_append]
    unfold readFraction
    split
    · rcases h '.' rfl with hdot | hdot | hdot <;> cases hdot
    · rfl
  · rw [if_neg hplaces, List.cons_append, readFraction,
      readDigits_append hplaces p.isDigit_places h.notDigit]
    rfl

theorem readExponent_of_endsValue (h : EndsValue rest) : readExponent rest = some ([], rest) := by
  cases rest with
  | nil => rfl
  | cons c rest =>
    have hletter : (c == 'e' || c == 'E') = false := by
      rcases h c rfl with rfl | rfl | rfl <;> rfl
    unfold readExponent
    simp only [hletter, Bool.false_eq_true, if_false]

theorem readNumber_of_digitFirst {cs : List Char} (negative : Bool) (h : Digits.DigitFirst cs) :
    readNumber (signChars negative ++ cs) = (do
      let (whole, rest) ← readWhole cs
      let (fraction, rest) ← readFraction rest
      let (exponent, rest) ← readExponent rest
      return (String.ofList (signChars negative ++ whole ++ fraction ++ exponent), rest)) := by
  cases negative with
  | true => rfl
  | false =>
    rw [signChars, if_neg Bool.false_ne_true, List.nil_append]
    unfold readNumber
    split
    rename_i hsign
    split at hsign
    · exact absurd h (Digits.not_digitFirst_minus _)
    · cases hsign
      rfl

theorem readNumber_text {t : String} (ht : IsNumeral t) (h : EndsValue rest) :
    readNumber (t.toList ++ rest) = some (t, rest) := by
  obtain ⟨negative, p, hzero, rfl⟩ := ht
  have hfirst : Digits.DigitFirst (p.chars ++ rest) := by
    rw [Positional.chars, List.append_assoc]
    exact Digits.digitFirst_append p.whole_ne_nil p.isDigit_whole _
  have hpoint : ∀ c ∈ ((if p.places = [] then [] else '.' :: p.places) ++ rest).head?,
      c.isDigit = false := by
    by_cases hplaces : p.places = []
    · rw [if_pos hplaces]
      exact h.notDigit
    · rw [if_neg hplaces]
      rintro _ ⟨⟩
      rfl
  rw [String.toList_ofList, List.append_assoc, readNumber_of_digitFirst negative hfirst,
    Positional.chars, List.append_assoc, readWhole_append hzero hpoint]
  simp only [Option.bind_eq_bind, Option.bind_some, readFraction_append p h,
    readExponent_of_endsValue h, List.append_assoc, List.append_nil, Option.pure_def]

end Numbers

end RecordSearch.Json
