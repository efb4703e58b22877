import RecordSearch.Proofs.JsonScalars

/-!
JSON read from its own text. The compact text of a value is read as the value again as long as arrays
and objects nest no deeper than the reader goes, and is no JSON for the reader if they do.

* `Json.nesting`, `Json.IsNormal`: how deep a value nests, and values as the reader makes them;
* `Json.readValue_text`: a value with so many levels of nesting left;
* `Json.read?_text`: a whole text.
-/

namespace RecordSearch.Json

mutual

/-- How deep arrays and objects lie within each other. -/
def nesting : Json → Nat
  | array items => nestingOf items + 1
  | object fields => nestingIn fields + 1
  | _ => 0

def nestingOf : List Json → Nat
  | [] => 0
  | item :: rest => max (nesting item) (nestingOf rest)

def nestingIn : List (String × Json) → Nat
  | [] => 0
  | (_, value) :: rest => max (nesting value) (nestingIn rest)

end

mutual

/-- The value is as the reader makes it: its numbers are numerals and its fields are in order. -/
def IsNormal : Json → Prop
  | number t => IsNumeral t
  | array items => AreNormal items
  | object fields => ofFields fields = object fields ∧ AreNormalIn fields
  | _ => True

def AreNormal : List Json → Prop
  | [] => True
  | item :: rest => IsNormal item ∧ AreNormal rest

def AreNormalIn : List (String × Json) → Prop
  | [] => True
  | (_, value) :: rest => IsNormal value ∧ AreNormalIn rest

end

/-- The characters of texts with commas between. -/
def joined (texts : List String) : List Char := (String.intercalate "," texts).toList

theorem joined_singleton (t : String) : joined [t] = t.toList := by
  rw [joined, String.intercalate_singleton]

theorem joined_cons_cons (t u : String) (texts : List String) :
    joined (t :: u :: texts) = t.toList ++ ',' :: joined (u :: texts) := by
  rw [joined, String.intercalate_cons_cons, String.toList_append, String.toList_append, ← joined,
    List.append_assoc]
  rfl

theorem toList_text_array (items : List Json) :
    (text (array items)).toList = '[' :: (joined (itemTexts items) ++ [']']) := by
  rw [text, String.toList_append, String.toList_append, ← joined]
  rfl

theorem toList_text_object (fields : List (String × Json)) :
    (text (object fields)).toList = '\x7b' :: (joined (fieldTexts fields) ++ ['\x7d']) := by
  rw [text, String.toList_append, String.toList_append, ← joined]
  rfl

def StartsNumeral (c : Char) : Prop := c = '-' ∨ c.isDigit = true

/-- The characters with which values start. -/
def StartsValue (c : Char) : Prop := c ∈ ['n', 't', 'f', '"', '[', '\x7b'] ∨ StartsNumeral c

theorem StartsNumeral.ne {c d : Char} (h : StartsNumeral c) (hdigit : d.isDigit = false)
    (hminus : d ≠ '-') : c ≠ d := by
  rintro rfl
  rcases h with rfl | h
  · exact hminus rfl
  · exact Bool.false_ne_true (hdigit.symm.trans h)

theorem StartsValue.ne {c d : Char} (h : StartsValue c) (hdigit : d.isDigit = false)
    (hminus : d ≠ '-') (hmem : d ∉ ['n', 't', 'f', '"', '[', '\x7b']) : c ≠ d := by
  rcases h with h | h
  · rintro rfl
    exact hmem h
  · exact h.ne hdigit hminus

theorem StartsValue.skipBlanks {c : Char} (h : StartsValue c) (cs : List Char) :
    skipBlanks (c :: cs) = c :: cs := by
  have hspace : c ≠ ' ' := h.ne rfl (by decide) (by decide)
  have htab : c ≠ '\t' := h.ne rfl (by decide) (by decide)
  have hline : c ≠ '\n' := h.ne rfl (by decide) (by decide)
  have hreturn : c ≠ '\r' := h.ne rfl (by decide) (by decide)
  simp [Json.skipBlanks, hspace, htab, hline, hreturn]

theorem IsNumeral.exists_startsNumeral {t : String} (h : IsNumeral t) :
    ∃ c cs, t.toList = c :: cs ∧ StartsNumeral c := by
  obtain ⟨negative, p, -, rfl⟩ := h
  rw [String.toList_ofList]
  cases negative with
  | true => exact ⟨'-', _, rfl, .inl rfl⟩
  | false =>
    have hfirst := p.digitFirst_chars
    cases hchars : p.chars with
    | nil => exact absurd hfirst (hchars ▸ id)
    | cons c cs => exact ⟨c, cs, rfl, .inr (by rwa [hchars] at hfirst)⟩

theorem exists_startsValue {j : Json} (h : IsNormal j) :
    ∃ c cs, (text j).toList = c :: cs ∧ StartsValue c := by
  cases j with
  | null => exact ⟨'n', _, rfl, .inl (by decide)⟩
  | bool b =>
    cases b with
    | true => exact ⟨'t', _, rfl, .inl (by decide)⟩
    | false => exact ⟨'f', _, rfl, .inl (by decide)⟩
  | number t =>
    obtain ⟨c, cs, htext, hc⟩ := IsNumeral.exists_startsNumeral h
    exact ⟨c, cs, htext, .inr hc⟩
  | string s => exact ⟨'"', _, toList_quote s, .inl (by decide)⟩
  | array items => exact ⟨'[', _, toList_text_array items, .inl (by decide)⟩
  | object fields => exact ⟨'\x7b', _, toList_text_object fields, .inl (by decide)⟩

section Values

variable (lone : Option Char) {depth fuel : Nat} {cs rest : List Char}

theorem readValue_of_startsNumeral {c : Char} (h : StartsNumeral c) (cs : List Char) :
    readValue lone depth (fuel + 1) (c :: cs) =
      (readNumber (c :: cs)).map fun p => (number p.1, p.2) := by
  have hstart : StartsValue c := .inr h
  have hnull : (c == 'n') = false := beq_false_of_ne (h.ne rfl (by decide))
  have htrue : (c == 't') = false := beq_false_of_ne (h.ne rfl (by decide))
  have hfalse : (c == 'f') = false := beq_false_of_ne (h.ne rfl (by decide))
  rw [readValue, hstart.skipBlanks cs]
  split
  · next hcons => cases hcons
  · next hcons => exact absurd (List.cons.inj hcons).1 (h.ne rfl (by decide))
  · next hcons => exact absurd (List.cons.inj hcons).1 (h.ne rfl (by decide))
  · next hcons => exact absurd (List.cons.inj hcons).1 (h.ne rfl (by decide))
  · next hcons =>
    cases hcons
    simp only [hnull, htrue, hfalse, Bool.false_eq_true, if_false]

theorem readValue_number {t : String} (ht : IsNumeral t) (hrest : EndsValue rest) :
    readValue lone depth (fuel + 1) (t.toList ++ rest) = some (number t, rest) := by
  obtain ⟨c, cs, htext, hc⟩ := ht.exists_startsNumeral
  have hread := readNumber_text ht hrest
  rw [htext, List.cons_append] at hread ⊢
  rw [readValue_of_startsNumeral lone hc, hread]
  rfl

theorem readValue_string {s : String} (h : s.length < fuel) :
    readValue lone depth (fuel + 1) ((quote s).toList ++ rest) = some (string s, rest) := by
  have hread := readString_quote lone h rest
  rw [toList_quote, List.cons_append] at hread ⊢
  have hskip : skipBlanks ('"' :: (s.toList.flatMap escape ++ ['"'] ++ rest)) =
      '"' :: (s.toList.flatMap escape ++ ['"'] ++ rest) := rfl
  rw [readValue, hskip]
  simp only [hread]
  rfl

theorem readValue_items {c : Char} (h : StartsValue c) (cs : List Char) :
    readValue lone depth (fuel + 1) ('[' :: c :: cs) =
      if depth = 0 then none
      else (readItems lone (depth - 1) fuel (c :: cs)).map fun p => (array p.1, p.2) := by
  have hbracket : c ≠ ']' := h.ne rfl (by decide) (by decide)
  have hskip : skipBlanks ('[' :: c :: cs) = '[' :: c :: cs := rfl
  rw [readValue, hskip]
  simp only [h.skipBlanks cs]
  congr 1
  split
  · next hcons => exact absurd (List.cons.inj hcons).1 hbracket
  · rfl

theorem readValue_fields (cs : List Char) :
    readValue lone depth (fuel + 1) ('\x7b' :: '"' :: cs) =
      if depth = 0 then none
      else (readFields lone (depth - 1) fuel ('"' :: cs)).map fun p => (ofFields p.1, p.2) := by
  have hskip : skipBlanks ('\x7b' :: '"' :: cs) = '\x7b' :: '"' :: cs := rfl
  have hquote : skipBlanks ('"' :: cs) = '"' :: cs := rfl
  rw [readValue, hskip]
  simp only [hquote]
  rfl

/-- A value within the depth, and what follows it. -/
theorem map_within {α β : Type} {n m : Nat} (h : n ≤ depth) (f : α → β) (a : α) :
    (if m ≤ depth then some a else none).map f = if max n m ≤ depth then some (f a) else none := by
  simp only [max_le_iff, h, true_and]
  split_ifs <;> rfl

theorem readItems_last {item : Json} {n : Nat}
    (h : readValue lone depth fuel cs = if n ≤ depth then some (item, ']' :: rest) else none) :
    readItems lone depth (fuel + 1) cs = if n ≤ depth then some ([item], rest) else none := by
  rw [readItems, h]
  split_ifs <;> rfl

theorem readItems_more {item : Json} {items : List Json} {n m : Nat} {after : List Char}
    (h : readValue lone depth fuel cs = if n ≤ depth then some (item, ',' :: rest) else none)
    (hrest : readItems lone depth fuel rest = if m ≤ depth then some (items, after) else none) :
    readItems lone depth (fuel + 1) cs =
      if max n m ≤ depth then some (item :: items, after) else none := by
  rw [readItems, h]
  by_cases hn : n ≤ depth
  · have hmore : skipBlanks (',' :: rest) = ',' :: rest := rfl
    rw [if_pos hn]
    simp only [hmore, hrest]
    exact map_within hn _ _
  · rw [if_neg hn, if_neg (fun h => hn (max_le_iff.1 h).1)]

/-- The name of a field and its colon. -/
theorem readFields_quote {name : String} (h : name.length < fuel) :
    readFields lone depth (fuel + 1) ((quote name).toList ++ ':' :: cs) =
      match readValue lone depth fuel cs with
      | none => none
      | some (value, rest) =>
        match skipBlanks rest with
        | ',' :: rest =>
          (readFields lone depth fuel rest).map fun p => ((name, value) :: p.1, p.2)
        | '\x7d' :: rest => some ([(name, value)], rest)
        | _ => none := by
  have hskip : skipBlanks ((quote name).toList ++ ':' :: cs) = (quote name).toList ++ ':' :: cs := by
    rw [toList_quote]
    rfl
  rw [readFields, hskip, readString_quote lone h]
  rfl

theorem readFields_last {name : String} {value : Json} {n : Nat} (hname : name.length < fuel)
    (h : readValue lone depth fuel cs = if n ≤ depth then some (value, '\x7d' :: rest) else none) :
    readFields lone depth (fuel + 1) ((quote name).toList ++ ':' :: cs) =
      if n ≤ depth then some ([(name, value)], rest) else none := by
  rw [readFields_quote lone hname, h]
  split_ifs <;> rfl

theorem readFields_more {name : String} {value : Json} {fields : List (String × Json)} {n m : Nat}
    {after : List Char} (hname : name.length < fuel)
    (h : readValue lone depth fuel cs = if n ≤ depth then some (value, ',' :: rest) else none)
    (hrest : readFields lone depth fuel rest = if m ≤ depth then some (fields, after) else none) :
    readFields lone depth (fuel + 1) ((quote name).toList ++ ':' :: cs) =
      if max n m ≤ depth then some ((name, value) :: fields, after) else none := by
  rw [readFields_quote lone hname, h]
  by_cases hn : n ≤ depth
  · have hmore : skipBlanks (',' :: rest) = ',' :: rest := rfl
    rw [if_pos hn]
    simp only [hmore, hrest]
    exact map_within hn _ _
  · rw [if_neg hn, if_neg (fun h => hn (max_le_iff.1 h).1)]

theorem length_lt_length_quote (s : String) : s.length + 1 < (quote s).toList.length := by
  have hescaped : s.toList.length ≤ (s.toList.flatMap escape).length := by
    induction s.toList with
    | nil => exact Nat.le_refl _
    | cons c cs ih =>
      have hc := length_escape_pos c
      rw [List.flatMap_cons, List.length_append, List.length_cons]
      omega
  rw [toList_quote, List.length_cons, List.length_append, List.length_singleton,
    ← String.length_toList]
  omega

theorem length_text_pos {j : Json} (h : IsNormal j) : 0 < (text j).toList.length := by
  obtain ⟨c, cs, htext, -⟩ := exists_startsValue h
  exact htext ▸ Nat.succ_pos _

theorem exists_fuel {j : Json} (h : IsNormal j) (hfuel : 2 * (text j).toList.length ≤ fuel) :
    ∃ n, fuel = n + 1 := by
  have hpos := length_text_pos h
  exact ⟨fuel - 1, by omega⟩

theorem endsValue_cons {c : Char} (h : c = ',' ∨ c = ']' ∨ c = '\x7d') (cs : List Char) :
    EndsValue (c :: cs) := by
  rintro _ ⟨⟩
  exact h

theorem joined_itemTexts_cons (item : Json) (items : List Json) :
    joined (itemTexts (item :: items)) =
      (text item).toList ++ if items = [] then [] else ',' :: joined (itemTexts items) := by
  cases items with
  | nil => simp [itemTexts, joined_singleton]
  | cons next items => simp [itemTexts, joined_cons_cons]

theorem joined_fieldTexts_cons (name : String) (value : Json) (fields : List (String × Json)) :
    joined (fieldTexts ((name, value) :: fields)) =
      (quote name).toList ++ ':' :: ((text value).toList ++
        if fields = [] then [] else ',' :: joined (fieldTexts fields)) := by
  cases fields with
  | nil => simp [fieldTexts, joined_singleton, String.toList_append]
  | cons next fields => simp [fieldTexts, joined_cons_cons, String.toList_append]

theorem exists_joined_itemTexts {items : List Json} (hne : items ≠ []) (h : AreNormal items) :
    ∃ c cs, joined (itemTexts items) = c :: cs ∧ StartsValue c := by
  obtain ⟨item, items, rfl⟩ := List.exists_cons_of_ne_nil hne
  obtain ⟨c, cs, hitem, hc⟩ := exists_startsValue h.1
  rw [joined_itemTexts_cons, hitem]
  exact ⟨c, _, rfl, hc⟩

theorem exists_joined_fieldTexts {fields : List (String × Json)} (hne : fields ≠ []) :
    ∃ cs, joined (fieldTexts fields) = '"' :: cs := by
  obtain ⟨⟨name, value⟩, fields, rfl⟩ := List.exists_cons_of_ne_nil hne
  rw [joined_fieldTexts_cons, toList_quote]
  exact ⟨_, rfl⟩

theorem readValue_array_nil :
    readValue lone depth (fuel + 1) ((text (array [])).toList ++ rest) =
      if nesting (array []) ≤ depth then some (array [], rest) else none := by
  have hskip : skipBlanks ('[' :: ']' :: rest) = '[' :: ']' :: rest := rfl
  have hclose : skipBlanks (']' :: rest) = ']' :: rest := rfl
  rw [toList_text_array, itemTexts, joined, String.intercalate_nil]
  change readValue lone depth (fuel + 1) ('[' :: ']' :: rest) = _
  rw [readValue, hskip]
  simp only [hclose]
  cases depth <;> rfl

theorem readValue_object_nil :
    readValue lone depth (fuel + 1) ((text (object [])).toList ++ rest) =
      if nesting (object []) ≤ depth then some (object [], rest) else none := by
  have hskip : skipBlanks ('\x7b' :: '\x7d' :: rest) = '\x7b' :: '\x7d' :: rest := rfl
  have hclose : skipBlanks ('\x7d' :: rest) = '\x7d' :: rest := rfl
  rw [toList_text_object, fieldTexts, joined, String.intercalate_nil]
  change readValue lone depth (fuel + 1) ('\x7b' :: '\x7d' :: rest) = _
  rw [readValue, hskip]
  simp only [hclose]
  cases depth <;> rfl

/-- One level of nesting is used up. -/
theorem map_nested {α β : Type} (f : α → β) (n depth : Nat) (a : α) :
    (if depth = 0 then none else (if n ≤ depth - 1 then some a else none).map f) =
      if n + 1 ≤ depth then some (f a) else none := by
  cases depth with
  | zero => rfl
  | succ depth =>
    rw [if_neg (Nat.succ_ne_zero depth), Nat.add_sub_cancel]
    by_cases h : n ≤ depth
    · rw [if_pos h, if_pos (Nat.succ_le_succ h)]
      rfl
    · rw [if_neg h, if_neg (fun hle => h (Nat.le_of_succ_le_succ hle))]
      rfl

mutual

/-- The text of a value is read back if the value nests no deeper than allowed. -/
theorem readValue_text (j : Json) (hj : IsNormal j) {depth fuel : Nat} {rest : List Char}
    (hrest : EndsValue rest) : 2 * (text j).toList.length ≤ fuel →
      readValue lone depth fuel ((text j).toList ++ rest) =
        if nesting j ≤ depth then some (j, rest) else none := by
  -- By induction on the value. An item takes one step in its list and one as a value, and a
  -- character of its own at least, so twice the characters of a text are fuel enough.
  match j with
  | null =>
    intro hfuel
    obtain ⟨fuel, rfl⟩ := exists_fuel hj hfuel
    exact (if_pos (Nat.zero_le _)).symm
  | bool true =>
    intro hfuel
    obtain ⟨fuel, rfl⟩ := exists_fuel hj hfuel
    exact (if_pos (Nat.zero_le _)).symm
  | bool false =>
    intro hfuel
    obtain ⟨fuel, rfl⟩ := exists_fuel hj hfuel
    exact (if_pos (Nat.zero_le _)).symm
  | number t =>
    intro hfuel
    obtain ⟨fuel, rfl⟩ := exists_fuel hj hfuel
    exact (readValue_number lone hj hrest).trans (if_pos (Nat.zero_le _)).symm
  | string s =>
    intro hfuel
    obtain ⟨fuel, rfl⟩ := exists_fuel hj hfuel
    have hlength := length_lt_length_quote s
    rw [text] at hfuel
    have hs : s.length < fuel := by omega
    exact (readValue_string lone hs).trans (if_pos (Nat.zero_le _)).symm
  | array items =>
    intro hfuel
    obtain ⟨fuel, rfl⟩ := exists_fuel hj hfuel
    by_cases hne : items = []
    · rw [hne]
      exact readValue_array_nil lone
    · rw [toList_text_array, List.length_cons, List.length_append, List.length_singleton] at hfuel
      have hread : readItems lone (depth - 1) fuel (joined (itemTexts items) ++ ']' :: rest) = _ :=
        readItems_text items hne hj (by omega) rest
      obtain ⟨c, cs, hitems, hc⟩ := exists_joined_itemTexts hne hj
      rw [toList_text_array, List.cons_append, List.append_assoc, List.singleton_append]
      rw [hitems, List.cons_append] at hread ⊢
      rw [readValue_items lone hc, hread]
      exact map_nested _ _ _ _
  | object fields =>
    intro hfuel
    obtain ⟨fuel, rfl⟩ := exists_fuel hj hfuel
    by_cases hne : fields = []
    · rw [hne]
      exact readValue_object_nil lone
    · rw [toList_text_object, List.length_cons, List.length_append, List.length_singleton] at hfuel
      have hread : readFields lone (depth - 1) fuel (joined (fieldTexts fields) ++ '\x7d' :: rest) =
          _ := readFields_text fields hne hj.2 (by omega) rest
      obtain ⟨cs, hfields⟩ := exists_joined_fieldTexts hne
      have hobject := map_nested (fun p => (ofFields p.1, p.2)) (nestingIn fields) depth (fields, rest)
      rw [toList_text_object, List.cons_append, List.append_assoc, List.singleton_append]
      rw [hfields, List.cons_append] at hread ⊢
      rw [readValue_fields lone, hread, hobject, hj.1]
      rfl

theorem readItems_text (items : List Json) (hne : items ≠ []) (h : AreNormal items)
    {depth fuel : Nat} (hfuel : 2 * (joined (itemTexts items)).length < fuel) (rest : List Char) :
    readItems lone depth fuel (joined (itemTexts items) ++ ']' :: rest) =
      if nestingOf items ≤ depth then some (items, rest) else none := by
  obtain ⟨fuel, rfl⟩ : ∃ n, fuel = n + 1 := ⟨fuel - 1, by omega⟩
  match items with
  | [] => exact absurd rfl hne
  | item :: items =>
    rw [joined_itemTexts_cons, List.length_append] at hfuel
    rw [joined_itemTexts_cons, List.append_assoc, nestingOf]
    by_cases hmore : items = []
    · rw [if_pos hmore, List.nil_append, hmore, nestingOf, Nat.max_zero]
      exact readItems_last lone
        (readValue_text item h.1 (endsValue_cons (.inr (.inl rfl)) rest) (by omega))
    · rw [if_neg hmore, List.length_cons] at hfuel
      rw [if_neg hmore, List.cons_append]
      exact readItems_more lone
        (readValue_text item h.1 (endsValue_cons (.inl rfl) _) (by omega))
        (readItems_text items hmore h.2 (by omega) rest)

theorem readFields_text (fields : List (String × Json)) (hne : fields ≠ []) (h : AreNormalIn fields)
    {depth fuel : Nat} (hfuel : 2 * (joined (fieldTexts fields)).length < fuel)
    (rest : List Char) :
    readFields lone depth fuel (joined (fieldTexts fields) ++ '\x7d' :: rest) =
      if nestingIn fields ≤ depth then some (fields, rest) else none := by
  obtain ⟨fuel, rfl⟩ : ∃ n, fuel = n + 1 := ⟨fuel - 1, by omega⟩
  match fields with
  | [] => exact absurd rfl hne
  | (name, value) :: fields =>
    have hname := length_lt_length_quote name
    rw [joined_fieldTexts_cons, List.length_append, List.length_cons, List.length_append] at hfuel
    rw [joined_fieldTexts_cons, List.append_assoc, List.cons_append, List.append_assoc, nestingIn]
    by_cases hmore : fields = []
    · rw [if_pos hmore, List.nil_append, hmore, nestingIn, Nat.max_zero]
      exact readFields_last lone (by omega)
        (readValue_text value h.1 (endsValue_cons (.inr (.inr rfl)) rest) (by omega))
    · rw [if_neg hmore, List.length_cons] at hfuel
      rw [if_neg hmore, List.cons_append]
      exact readFields_more lone (by omega)
        (readValue_text value h.1 (endsValue_cons (.inl rfl) _) (by omega))
        (readFields_text fields hmore h.2 (by omega) rest)

end

end Values

/-- The text of a value is its text for the reader unless it nests too deep. -/
theorem read?_text {j : Json} (hj : IsNormal j) :
    read? (text j) = if nesting j ≤ maxDepth then some j else none := by
  have hread : readValue none maxDepth (fuelFor (text j).toList) ((text j).toList ++ []) = _ :=
    readValue_text none j hj (by rintro _ ⟨⟩) (Nat.le_add_right _ 2)
  rw [List.append_nil] at hread
  simp only [read?, hread, Option.bind_eq_bind]
  split_ifs <;> rfl

end RecordSearch.Json
