import RecordSearch.Schema.FieldType

/-!
Types and their text. The text of a type that was read is read as that type again, be the first text
spelled with blanks, with another name of the type or in another case, or one that means nothing.

* `FieldType.read_concat_mark`, `FieldType.read_brackets`: optional types and lists are read from
  the outside in, whatever stands inside;
* `EnumType.IsDeclared`: the names and members that can be read, and `FieldType.readEnum?_text`,
  which reads them back;
* `FieldType.ofText_text_ofText`: reading, writing and reading is reading.
-/

namespace RecordSearch

namespace Text

variable {c stop : Char} {cs : List Char}

theorem trim_concat (h : isBlank c = false) (cs : List Char) :
    trim (cs ++ [c]) = trimLeft cs ++ [c] := by
  rw [trim, trimLeft_concat h, trimRight_concat h]

/-- What stands between two characters that are not blank is kept as it is. -/
theorem trim_between {first last : Char} (hfirst : isBlank first = false)
    (hlast : isBlank last = false) (cs : List Char) :
    trim (first :: (cs ++ [last])) = first :: (cs ++ [last]) := by
  rw [trim, trimLeft_cons hfirst, ← List.cons_append, trimRight_concat hlast]

theorem trim_space_cons (cs : List Char) : trim (' ' :: cs) = trim cs :=
  congrArg trimRight (List.dropWhile_cons_of_pos rfl)

theorem mem_of_mem_trim (h : c ∈ trim cs) : c ∈ cs := by
  have hleft : c ∈ trimLeft cs :=
    List.mem_reverse.1 ((List.dropWhile_suffix isBlank).mem (List.mem_reverse.1 h))
  exact (List.dropWhile_suffix isBlank).mem hleft

/-- What a part between marks may be: something, with no blank at its ends and no mark in it. -/
structure IsPart (mark : Char) (cs : List Char) : Prop where
  ne_nil : cs ≠ []
  trimmed : trim cs = cs
  plain : mark ∉ cs

theorem isPart_trim {mark : Char} (hne : trim cs ≠ []) (h : mark ∉ cs) : IsPart mark (trim cs) :=
  ⟨hne, trim_trim cs, fun hmem => h (mem_of_mem_trim hmem)⟩

end Text

/-- What a text can declare: a name that ends at a parenthesis, and members between commas. -/
structure EnumType.IsDeclared (e : EnumType) : Prop where
  name : Text.IsPart '(' e.name.toList
  members_ne : e.members ≠ []
  members : ∀ m ∈ e.members, Text.IsPart ',' m.toList

theorem not_mem_of_mem_splitOn {c : Char} (cs : List Char) : ∀ l ∈ cs.splitOn c, c ∉ l := by
  induction cs with
  | nil => simp
  | cons d cs ih =>
    obtain ⟨first, rest, hsplit⟩ := List.exists_cons_of_ne_nil (List.splitOn_ne_nil c cs)
    rw [List.splitOn_cons_eq_if_modifyHead]
    rw [hsplit] at ih ⊢
    split
    · exact List.forall_mem_cons.2 ⟨List.not_mem_nil, ih⟩
    · next hne =>
      obtain ⟨hfirst, hrest⟩ := List.forall_mem_cons.1 ih
      have hd : c ≠ d := fun heq => hne (beq_iff_eq.2 heq.symm)
      exact List.forall_mem_cons.2 ⟨List.not_mem_cons_of_ne_of_not_mem hd hfirst, hrest⟩

namespace FieldType

variable {c d : Char} {cs ds inner : List Char} {e : EnumType}

theorem dropLast?_concat (c : Char) (cs : List Char) : dropLast? c (cs ++ [c]) = some cs := by
  rw [dropLast?, List.getLast?_concat, if_pos rfl, List.dropLast_concat]

theorem dropLast?_concat_of_ne (h : d ≠ c) (cs : List Char) : dropLast? c (cs ++ [d]) = none := by
  rw [dropLast?, List.getLast?_concat, if_neg fun heq => h (Option.some.inj heq)]

theorem read_of_dropLast? (h : dropLast? '?' (Text.trim cs) = some inner) :
    read cs = optional (read inner) := by
  rw [read]
  split
  · next h' =>
    obtain rfl := Option.some.inj (h.symm.trans h')
    rfl
  · next h' => cases h.symm.trans h'

theorem read_of_element? (hmark : dropLast? '?' (Text.trim cs) = none)
    (h : element? (Text.trim cs) = some inner) : read cs = list (read inner) := by
  rw [read]
  split
  · next h' => cases hmark.symm.trans h'
  · split
    · next h' =>
      obtain rfl := Option.some.inj (h.symm.trans h')
      rfl
    · next h' => cases h.symm.trans h'

theorem read_of_plain (hmark : dropLast? '?' (Text.trim cs) = none)
    (hbrackets : element? (Text.trim cs) = none) :
    read cs = if ['e', 'n', 'u', 'm', ' '].isPrefixOf (Text.trim cs) then
      ((readEnum? ((Text.trim cs).drop 5)).map enum).getD (other (String.ofList (Text.trim cs)))
      else readName (Text.trim cs) := by
  rw [read]
  split
  · next h' => cases hmark.symm.trans h'
  · split
    · next h' => cases hbrackets.symm.trans h'
    · rfl

/-- Blanks around a text do not count. -/
theorem read_congr (h : Text.trim cs = Text.trim ds) : read cs = read ds := by
  cases hmark : dropLast? '?' (Text.trim ds) with
  | some inner => rw [read_of_dropLast? hmark, read_of_dropLast? (h ▸ hmark)]
  | none =>
    cases hbrackets : element? (Text.trim ds) with
    | some inner =>
      rw [read_of_element? hmark hbrackets, read_of_element? (h ▸ hmark) (h ▸ hbrackets)]
    | none =>
      rw [read_of_plain hmark hbrackets, read_of_plain (h ▸ hmark) (h ▸ hbrackets), h]

theorem read_concat_mark (cs : List Char) : read (cs ++ ['?']) = optional (read cs) := by
  have htrim := Text.trim_concat (show Text.isBlank '?' = false by decide) cs
  rw [read_of_dropLast? (htrim ▸ dropLast?_concat '?' _), read_congr (Text.trim_trimLeft cs)]

theorem read_brackets (cs : List Char) : read ('[' :: (cs ++ [']'])) = list (read cs) := by
  have htrim := Text.trim_between (show Text.isBlank '[' = false by decide)
    (show Text.isBlank ']' = false by decide) cs
  apply read_of_element?
  · rw [htrim]
    exact dropLast?_concat_of_ne (by decide) ('[' :: cs)
  · rw [htrim]
    exact dropLast?_concat ']' cs

/-- The members between the parentheses, as they are written. -/
def memberText (e : EnumType) : List Char := [',', ' '].intercalate (e.members.map String.toList)

/-- Between members stands a comma, and a blank in front of all but the first. -/
theorem intercalate_comma_blank (m : List Char) (rest : List (List Char)) :
    [',', ' '].intercalate (m :: rest) = [','].intercalate (m :: rest.map (' ' :: ·)) := by
  induction rest generalizing m with
  | nil => rfl
  | cons n rest ih =>
    rw [List.intercalate_cons_cons, ih, List.map_cons, List.intercalate_cons_cons]
    cases rest with
    | nil => simp
    | cons => simp [List.intercalate_cons_cons]

theorem map_trim_splitOn_memberText (h : e.IsDeclared) :
    ((memberText e).splitOn ',').map Text.trim = e.members.map String.toList := by
  obtain ⟨m, rest, hms⟩ := List.exists_cons_of_ne_nil h.members_ne
  have hpart : ∀ n ∈ m :: rest, Text.IsPart ',' n.toList := hms ▸ h.members
  obtain ⟨hfirst, hrest⟩ := List.forall_mem_cons.1 hpart
  have hplain : ∀ l ∈ m.toList :: (rest.map String.toList).map (' ' :: ·), ',' ∉ l := by
    rw [List.map_map]
    refine List.forall_mem_cons.2 ⟨hfirst.plain, List.forall_mem_map.2 fun n hn => ?_⟩
    exact List.not_mem_cons_of_ne_of_not_mem (by decide) (hrest n hn).plain
  rw [memberText, hms, List.map_cons, intercalate_comma_blank,
    List.splitOn_intercalate ',' hplain (List.cons_ne_nil _ _), List.map_cons, List.map_map,
    List.map_map, hfirst.trimmed, List.map_congr_left]
  intro n hn
  exact (Text.trim_space_cons n.toList).trans (hrest n hn).trimmed

theorem readEnum?_text (h : e.IsDeclared) :
    readEnum? (e.name.toList ++ '(' :: (memberText e ++ [')'])) = some e := by
  have hname : ∀ c ∈ e.name.toList, (c != '(') = true := fun c hc =>
    bne_iff_ne.2 fun heq => h.name.plain (heq ▸ hc)
  have hmembers : (e.members.map String.toList).filter (fun m => !m.isEmpty) =
      e.members.map String.toList := by
    refine List.filter_eq_self.2 (List.forall_mem_map.2 fun m hm => ?_)
    simpa using (h.members m hm).ne_nil
  unfold readEnum?
  rw [List.dropWhile_append_of_pos hname, List.takeWhile_append_of_pos hname,
    List.dropWhile_cons_of_neg (by decide), List.takeWhile_cons_of_neg (by decide)]
  simp only [Text.trimRight_concat (show Text.isBlank ')' = false by decide), dropLast?_concat,
    map_trim_splitOn_memberText h, hmembers, h.name.trimmed, List.append_nil, Option.bind_eq_bind,
    Option.bind_some]
  simp [h.name.ne_nil, h.members_ne]

theorem isDeclared_of_readEnum? (h : readEnum? cs = some e) : e.IsDeclared := by
  unfold readEnum? at h
  split at h
  · cases h
  · next rest hrest =>
    obtain ⟨body, hbody, h⟩ := Option.bind_eq_some_iff.1 h
    dsimp only at h
    split at h
    · cases h
    · next hne =>
      obtain rfl := Option.some.inj h
      simp only [Bool.or_eq_true, List.isEmpty_iff, not_or] at hne
      refine ⟨?_, ?_, ?_⟩
      · rw [String.toList_ofList]
        exact Text.isPart_trim hne.1 fun hmem => by
          simpa using List.all_eq_true.1 List.all_takeWhile '(' hmem
      · exact fun hnil => hne.2 (List.map_eq_nil_iff.1 hnil)
      · refine List.forall_mem_map.2 fun m hm => ?_
        obtain ⟨hm, hfull⟩ := List.mem_filter.1 hm
        obtain ⟨l, hl, rfl⟩ := List.mem_map.1 hm
        rw [String.toList_ofList]
        exact Text.isPart_trim (by simpa using hfull) (not_mem_of_mem_splitOn body l hl)

theorem read_text_enum (h : e.IsDeclared) : read (enum e).text.toList = enum e := by
  have htext : (enum e).text.toList = ['e', 'n', 'u', 'm', ' '] ++
      (e.name.toList ++ '(' :: (memberText e ++ [')'])) := by
    simp [text, memberText]
  have hends : (enum e).text.toList = 'e' :: (('n' :: 'u' :: 'm' :: ' ' ::
      (e.name.toList ++ '(' :: memberText e)) ++ [')']) := by
    simp [htext]
  have htrim : Text.trim (enum e).text.toList = (enum e).text.toList :=
    hends ▸ Text.trim_between (by decide) (by decide) _
  rw [read_of_plain, htrim, htext, if_pos (List.isPrefixOf_iff_prefix.2 (List.prefix_append _ _))]
  · change ((readEnum? (e.name.toList ++ '(' :: (memberText e ++ [')']))).map enum).getD _ = enum e
    rw [readEnum?_text h]
    rfl
  · rw [htrim, hends]
    exact dropLast?_concat_of_ne (by decide) ('e' :: _)
  · rw [htrim, hends]
    rfl

theorem read_text_of_mem_names : ∀ p ∈ names, read p.2.text.toList = p.2 := by
  have hplain : ∀ p ∈ names, Text.trim p.2.text.toList = p.2.text.toList ∧
      dropLast? '?' p.2.text.toList = none ∧ element? p.2.text.toList = none ∧
      ['e', 'n', 'u', 'm', ' '].isPrefixOf p.2.text.toList = false ∧
      readName p.2.text.toList = p.2 := by
    decide
  intro p hp
  obtain ⟨htrim, hmark, hbrackets, henum, hname⟩ := hplain p hp
  rw [read_of_plain (htrim.symm ▸ hmark) (htrim.symm ▸ hbrackets), htrim, henum]
  exact hname

/-- A text that means nothing goes on meaning nothing. -/
theorem read_text_of_other (h : read cs = other (String.ofList (Text.trim cs))) :
    read (read cs).text.toList = read cs := by
  rw [h, text, String.toList_ofList, read_congr (Text.trim_trim cs), h]

theorem read_text_read (cs : List Char) : read (read cs).text.toList = read cs := by
  induction cs using read.induct with
  | case1 cs trimmed inner hmark _ ih =>
    rw [read_of_dropLast? hmark, text, String.toList_append]
    exact (read_concat_mark _).trans (congrArg optional ih)
  | case2 cs trimmed hmark inner hbrackets _ ih =>
    have htext : (list (read inner)).text.toList = '[' :: ((read inner).text.toList ++ [']']) := by
      simp [text]
    rw [read_of_element? hmark hbrackets, htext]
    exact (read_brackets _).trans (congrArg list ih)
  | case3 cs trimmed hmark hbrackets henum =>
    have hread := read_of_plain hmark hbrackets
    rw [if_pos henum] at hread
    cases he : readEnum? (trimmed.drop 5) with
    | some e =>
      have hread : read cs = enum e := by
        rw [hread, he]
        rfl
      rw [hread, read_text_enum (isDeclared_of_readEnum? he)]
    | none =>
      apply read_text_of_other
      rw [hread, he]
      rfl
  | case4 cs trimmed hmark hbrackets henum =>
    have hread := read_of_plain hmark hbrackets
    rw [if_neg henum, readName] at hread
    cases hl : names.lookup (Ascii.lower (String.ofList trimmed)) with
    | some t =>
      obtain ⟨before, after, hnames, -⟩ := List.lookup_eq_some_iff.1 hl
      have hmem : (Ascii.lower (String.ofList trimmed), t) ∈ names := by
        rw [hnames]
        exact List.mem_append_right before List.mem_cons_self
      have hread : read cs = t := by
        rw [hread, hl]
        rfl
      rw [hread, read_text_of_mem_names _ hmem]
    | none =>
      apply read_text_of_other
      rw [hread, hl]
      rfl

/-- **The text of a type is read as the type.** Whatever a text is read as, optional types, lists
and enumerations of any depth and texts that mean nothing included, the text of it is read as the
same. -/
theorem ofText_text_ofText (t : String) : ofText (ofText t).text = ofText t :=
  read_text_read t.toList

end FieldType

end RecordSearch
