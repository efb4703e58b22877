/-!
Blank characters are those with the property White_Space, and trimming takes them off both ends.
-/

namespace RecordSearch.Text

/-- The property White_Space: 25 characters, of which 6 are ASCII. -/
def isBlank (c : Char) : Bool :=
  let n := c.toNat
  (9 ≤ n && n ≤ 13) || n == 0x20 || n == 0x85 || n == 0xA0 || n == 0x1680 ||
    (0x2000 ≤ n && n ≤ 0x200A) || n == 0x2028 || n == 0x2029 || n == 0x202F || n == 0x205F ||
    n == 0x3000

def trimLeft (cs : List Char) : List Char := cs.dropWhile isBlank

def trimRight (cs : List Char) : List Char := (cs.reverse.dropWhile isBlank).reverse

def trim (cs : List Char) : List Char := trimRight (trimLeft cs)

theorem length_trimLeft_le (cs : List Char) : (trimLeft cs).length ≤ cs.length :=
  (List.dropWhile_suffix _).length_le

theorem length_trimRight_le (cs : List Char) : (trimRight cs).length ≤ cs.length := by
  have h := length_trimLeft_le cs.reverse
  simpa [trimRight, trimLeft] using h

theorem length_trim_le (cs : List Char) : (trim cs).length ≤ cs.length :=
  Nat.le_trans (length_trimRight_le _) (length_trimLeft_le _)

variable {c : Char} {cs : List Char}

theorem trimLeft_append {before : List Char} (h : ∀ c ∈ before, isBlank c = true)
    (cs : List Char) : trimLeft (before ++ cs) = trimLeft cs :=
  List.dropWhile_append_of_pos h

theorem trimLeft_cons (h : isBlank c = false) (cs : List Char) : trimLeft (c :: cs) = c :: cs :=
  List.dropWhile_cons_of_neg (Bool.eq_false_iff.1 h)

theorem trimLeft_concat (h : isBlank c = false) (cs : List Char) :
    trimLeft (cs ++ [c]) = trimLeft cs ++ [c] := by
  rw [trimLeft, List.dropWhile_append]
  split
  · next hnil =>
    rw [trimLeft, List.isEmpty_iff.1 hnil]
    exact trimLeft_cons h []
  · rfl

theorem trimLeft_of_not_isBlank (h : ∀ c ∈ cs, isBlank c = false) : trimLeft cs = cs := by
  cases cs with
  | nil => rfl
  | cons c cs => exact trimLeft_cons (h c List.mem_cons_self) cs

theorem trimLeft_eq (cs : List Char) :
    trimLeft cs = [] ∨ ∃ c rest, trimLeft cs = c :: rest ∧ isBlank c = false := by
  have hhead := List.head?_dropWhile_not isBlank cs
  cases h : trimLeft cs with
  | nil => exact .inl rfl
  | cons c rest =>
    rw [trimLeft] at h
    rw [h] at hhead
    exact .inr ⟨c, rest, rfl, hhead⟩

theorem trimLeft_trimLeft (cs : List Char) : trimLeft (trimLeft cs) = trimLeft cs := by
  rcases trimLeft_eq cs with h | ⟨c, rest, h, hc⟩
  · rw [h]
    rfl
  · rw [h, trimLeft_cons hc]

theorem trimRight_cons (h : isBlank c = false) (cs : List Char) :
    trimRight (c :: cs) = c :: trimRight cs := by
  have hback := trimLeft_concat h cs.reverse
  rw [trimLeft] at hback
  rw [trimRight, List.reverse_cons, hback, List.reverse_append]
  rfl

theorem trimRight_concat (h : isBlank c = false) (cs : List Char) :
    trimRight (cs ++ [c]) = cs ++ [c] := by
  have hback := trimLeft_cons h cs.reverse
  rw [trimLeft] at hback
  rw [trimRight, List.reverse_append, List.reverse_singleton, List.singleton_append, hback,
    List.reverse_cons, List.reverse_reverse]

theorem trimRight_append {after : List Char} (h : ∀ c ∈ after, isBlank c = true)
    (hcs : ∀ c ∈ cs, isBlank c = false) : trimRight (cs ++ after) = cs := by
  have hback : trimLeft (after.reverse ++ cs.reverse) = cs.reverse := by
    rw [trimLeft_append fun c hc => h c (List.mem_reverse.1 hc)]
    exact trimLeft_of_not_isBlank fun c hc => hcs c (List.mem_reverse.1 hc)
  rw [trimRight, List.reverse_append]
  exact (congrArg List.reverse hback).trans (List.reverse_reverse cs)

theorem trimRight_trimRight (cs : List Char) : trimRight (trimRight cs) = trimRight cs := by
  have hback := trimLeft_trimLeft cs.reverse
  rw [trimRight, trimRight, List.reverse_reverse]
  exact congrArg List.reverse hback

theorem trim_of_not_isBlank (h : ∀ c ∈ cs, isBlank c = false) : trim cs = cs := by
  have hback := trimRight_append (fun c hc => absurd hc List.not_mem_nil) h
  rw [List.append_nil] at hback
  rw [trim, trimLeft_of_not_isBlank h, hback]

theorem trim_trimLeft (cs : List Char) : trim (trimLeft cs) = trim cs := by
  rw [trim, trim, trimLeft_trimLeft]

/-- Trimming leaves nothing to trim. -/
theorem trim_trim (cs : List Char) : trim (trim cs) = trim cs := by
  rcases trimLeft_eq cs with h | ⟨c, rest, h, hc⟩
  · rw [trim, trim, h]
    rfl
  · rw [trim, trim, h, trimRight_cons hc, trimLeft_cons hc, trimRight_cons hc, trimRight_trimRight]

end RecordSearch.Text
