/-!
Names of fields, members, keys and codes are compared without regard to the case of ASCII
letters. Every other character, a letter with an accent included, has to be the same.
-/

namespace RecordSearch.Ascii

def lower (s : String) : String := String.ofList (s.toList.map Char.toLower)

def same (a b : String) : Bool := lower a == lower b

theorem toLower_of_isDigit {c : Char} (h : c.isDigit = true) : c.toLower = c := by
  have hupper : ¬(c.val ≥ 'A'.val ∧ c.val ≤ 'Z'.val) := by
    intro hupper
    simp only [Char.isDigit, Bool.and_eq_true, decide_eq_true_eq] at h
    exact absurd (UInt32.le_trans hupper.1 h.2) (by decide)
  exact dif_neg hupper

theorem toLower_of_not_isUpper {c : Char} (h : ¬('A'.toNat ≤ c.toNat ∧ c.toNat ≤ 'Z'.toNat)) :
    c.toLower = c := by
  apply dif_neg
  rintro ⟨hlow, hhigh⟩
  exact h ⟨UInt32.le_iff_toNat_le.1 hlow, UInt32.le_iff_toNat_le.1 hhigh⟩

theorem same_iff {a b : String} : same a b = true ↔ lower a = lower b := beq_iff_eq

theorem same_refl (a : String) : same a a = true := by simp [same]

theorem same_comm (a b : String) : same a b = same b a := BEq.comm

theorem same_trans {a b c : String} (h : same a b = true) (k : same b c = true) :
    same a c = true :=
  same_iff.2 ((same_iff.1 h).trans (same_iff.1 k))

/-- A name may be told by any case of it. -/
theorem same_congr {a b c : String} (h : same a b = true) : same a c = same b c := by
  rw [Bool.eq_iff_iff, same_iff, same_iff, same_iff.1 h]

end RecordSearch.Ascii
