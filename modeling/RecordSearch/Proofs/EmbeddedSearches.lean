import RecordSearch.Proofs.TextRoundTrip
import RecordSearch.Wire.PagedSearch

/-!
Searches inside of other JSON. The fields that are asked for by name are read as they were
written, and of the fields beside them nothing counts, however deep they nest. So a search within
an object or an array is read as the search alone, one level of nesting further down, and a paged
search comes back exactly if its search does.

* `Json.fieldsNamed?_text`: the named fields of an object that was written;
* `PagedSearch.ofText?_object`: a search and a page among other fields;
* `PagedSearch.ofText?_array`: a search and a page, one after the other;
* `PagedSearch.ofText?_text`: a paged search in its own text.
-/

namespace RecordSearch

namespace Json

mutual

theorem nesting_le_length : ∀ j : Json, nesting j ≤ (text j).toList.length
  | null | bool _ | number _ | string _ => Nat.zero_le _
  -- A level opens with a character of its own.
  | array items => by
    have hitems := nestingOf_le_length items
    rw [toList_text_array, nesting, List.length_cons, List.length_append]
    omega
  | object fields => by
    have hfields := nestingIn_le_length fields
    rw [toList_text_object, nesting, List.length_cons, List.length_append]
    omega

theorem nestingOf_le_length : ∀ items : List Json,
    nestingOf items ≤ (joined (itemTexts items)).length
  | [] => Nat.zero_le _
  | item :: rest => by
    have hitem := nesting_le_length item
    rw [joined_itemTexts_cons, nestingOf, List.length_append]
    by_cases hrest : rest = []
    · rw [if_pos hrest, hrest, nestingOf]
      omega
    · have hmore := nestingOf_le_length rest
      rw [if_neg hrest, List.length_cons]
      omega

theorem nestingIn_le_length : ∀ fields : List (String × Json),
    nestingIn fields ≤ (joined (fieldTexts fields)).length
  | [] => Nat.zero_le _
  | (name, value) :: rest => by
    have hvalue := nesting_le_length value
    rw [joined_fieldTexts_cons, nestingIn, List.length_append, List.length_cons,
      List.length_append]
    by_cases hrest : rest = []
    · rw [if_pos hrest, hrest, nestingIn]
      omega
    · have hmore := nestingIn_le_length rest
      rw [if_neg hrest, List.length_cons]
      omega

end

theorem nestingIn_append (fields more : List (String × Json)) :
    nestingIn (fields ++ more) = max (nestingIn fields) (nestingIn more) := by
  induction fields with
  | nil => simp [nestingIn]
  | cons f rest ih => rw [List.cons_append, nestingIn, nestingIn, ih, Nat.max_assoc]

theorem nestingIn_le_iff {fields : List (String × Json)} {n : Nat} :
    nestingIn fields ≤ n ↔ ∀ f ∈ fields, nesting f.2 ≤ n := by
  induction fields with
  | nil => simp [nestingIn]
  | cons f rest ih => rw [nestingIn, max_le_iff, ih, List.forall_mem_cons]

/-- The fields that have one of the names. -/
def named (names : List String) (fields : List (String × Json)) : List (String × Json) :=
  fields.filter fun f => names.contains f.1

section Reading

variable {names : List String} {name : String} {value : Json} {fields more : List (String × Json)}
  {fuel n m : Nat} {cs rest after : List Char}

/-- Twice the characters of a text are more levels than its value has. -/
theorem skipValue_text (hvalue : IsNormal value) (hrest : EndsValue rest)
    (hfuel : 2 * (text value).toList.length ≤ fuel) :
    skipValue fuel ((text value).toList ++ rest) = some rest := by
  have hlevels : nesting value ≤ fuel := by
    have hlength := nesting_le_length value
    omega
  rw [skipValue, readValue_text _ value hvalue hrest hfuel, if_pos hlevels]
  rfl

theorem readNamedValue_text (hvalue : IsNormal value) (hrest : EndsValue rest)
    (hfuel : 2 * (text value).toList.length ≤ fuel) :
    readNamedValue names name fuel ((text value).toList ++ rest) =
      if nestingIn (named names [(name, value)]) ≤ maxDepth - 1 then
        some (named names [(name, value)], rest) else none := by
  rw [readNamedValue, named]
  cases hname : names.contains name with
  | true =>
    have hkept : [(name, value)].filter (fun f => names.contains f.1) = [(name, value)] :=
      List.filter_eq_self.2 fun f hf => by rw [List.mem_singleton.1 hf, hname]
    rw [if_pos rfl, hkept, readValue_text _ value hvalue hrest hfuel, nestingIn, nestingIn,
      Nat.max_zero]
    split_ifs <;> rfl
  | false =>
    have hpassed : [(name, value)].filter (fun f => names.contains f.1) = [] :=
      List.filter_eq_nil_iff.2 fun f hf => by rw [List.mem_singleton.1 hf, hname]; decide
    rw [if_neg Bool.false_ne_true, hpassed, skipValue_text hvalue hrest hfuel]
    exact (if_pos (Nat.zero_le _)).symm

theorem readNamed_quote (h : name.length < fuel) :
    readNamed names (fuel + 1) ((quote name).toList ++ ':' :: cs) =
      match readNamedValue names name fuel cs with
      | none => none
      | some (field, rest) =>
        match skipBlanks rest with
        | ',' :: rest => (readNamed names fuel rest).map fun p => (field ++ p.1, p.2)
        | '\x7d' :: rest => some (field, rest)
        | _ => none := by
  have hskip : skipBlanks ((quote name).toList ++ ':' :: cs) =
      (quote name).toList ++ ':' :: cs := by
    rw [toList_quote]
    rfl
  have hcolon : skipBlanks (':' :: cs) = ':' :: cs := rfl
  rw [readNamed, hskip, readString_quote none h]
  simp only [Option.bind_eq_bind, Option.bind_some, hcolon]
  cases readNamedValue names name fuel cs <;> rfl

theorem readNamed_last (hname : name.length < fuel)
    (h : readNamedValue names name fuel cs =
      if n ≤ maxDepth - 1 then some (fields, '\x7d' :: rest) else none) :
    readNamed names (fuel + 1) ((quote name).toList ++ ':' :: cs) =
      if n ≤ maxDepth - 1 then some (fields, rest) else none := by
  rw [readNamed_quote hname, h]
  split_ifs <;> rfl

theorem readNamed_more (hname : name.length < fuel)
    (h : readNamedValue names name fuel cs =
      if n ≤ maxDepth - 1 then some (fields, ',' :: rest) else none)
    (hrest : readNamed names fuel rest =
      if m ≤ maxDepth - 1 then some (more, after) else none) :
    readNamed names (fuel + 1) ((quote name).toList ++ ':' :: cs) =
      if max n m ≤ maxDepth - 1 then some (fields ++ more, after) else none := by
  rw [readNamed_quote hname, h]
  by_cases hn : n ≤ maxDepth - 1
  · have hcomma : skipBlanks (',' :: rest) = ',' :: rest := rfl
    rw [if_pos hn]
    simp only [hcomma, hrest]
    exact map_within hn _ _
  · rw [if_neg hn, if_neg (fun h => hn (max_le_iff.1 h).1)]

theorem named_cons (f : String × Json) (fields : List (String × Json)) :
    named names (f :: fields) = named names [f] ++ named names fields := by
  rw [← List.singleton_append, named, List.filter_append, named, named]

/-- The named fields are read in the order in which they are written. -/
theorem readNamed_text (fields : List (String × Json)) (hne : fields ≠ [])
    (h : AreNormalIn fields) (hfuel : 2 * (joined (fieldTexts fields)).length < fuel)
    (rest : List Char) :
    readNamed names fuel (joined (fieldTexts fields) ++ '\x7d' :: rest) =
      if nestingIn (named names fields) ≤ maxDepth - 1 then some (named names fields, rest)
      else none := by
  -- A comma stands behind every value but the last, and either is an end for the value's reader.
  induction fields generalizing fuel with
  | nil => exact absurd rfl hne
  | cons f more ih =>
    obtain ⟨name, value⟩ := f
    obtain ⟨fuel, rfl⟩ : ∃ n, fuel = n + 1 := ⟨fuel - 1, by omega⟩
    have hname := length_lt_length_quote name
    rw [joined_fieldTexts_cons, List.length_append, List.length_cons, List.length_append] at hfuel
    rw [joined_fieldTexts_cons, List.append_assoc, List.cons_append, List.append_assoc]
    by_cases hmore : more = []
    · rw [if_pos hmore, List.nil_append, hmore]
      exact readNamed_last (by omega)
        (readNamedValue_text h.1 (endsValue_cons (.inr (.inr rfl)) rest) (by omega))
    · rw [if_neg hmore, List.length_cons] at hfuel
      rw [if_neg hmore, List.cons_append, named_cons, nestingIn_append]
      exact readNamed_more (by omega)
        (readNamedValue_text h.1 (endsValue_cons (.inl rfl) _) (by omega))
        (ih hmore h.2 (by omega))

/-- An object that has a field is read from the quote of the first name on. -/
theorem fieldsNamed?_of_quote {s : String} (h : s.toList = '\x7b' :: '"' :: cs) :
    fieldsNamed? names s = (readNamed names (fuelFor s.toList) ('"' :: cs)).bind fun p =>
      if (skipBlanks p.2).isEmpty then some p.1 else none := by
  have hbrace : skipBlanks ('\x7b' :: '"' :: cs) = '\x7b' :: '"' :: cs := rfl
  have hquote : skipBlanks ('"' :: cs) = '"' :: cs := rfl
  rw [fieldsNamed?, h]
  simp only [hbrace, hquote]
  rfl

end Reading

/-- **The named fields of an object are read from its text** if none of them nests too deep. The
fields beside them need not even be within the depth of the reader. -/
theorem fieldsNamed?_text (names : List String) {fields : List (String × Json)}
    (h : AreNormalIn fields) : fieldsNamed? names (text (object fields)) =
      if nestingIn (named names fields) < maxDepth then some (named names fields) else none := by
  by_cases hne : fields = []
  · subst hne
    rfl
  · have hfuel : 2 * (joined (fieldTexts fields)).length <
        fuelFor (text (object fields)).toList := by
      rw [toList_text_object, fuelFor, List.length_cons, List.length_append]
      omega
    have hread : readNamed names _ _ = _ := readNamed_text fields hne h hfuel []
    obtain ⟨cs, hfields⟩ := exists_joined_fieldTexts hne
    have htext : (text (object fields)).toList = '\x7b' :: '"' :: (cs ++ ['\x7d']) := by
      rw [toList_text_object, hfields]
      rfl
    rw [hfields] at hread
    rw [fieldsNamed?_of_quote htext, ← List.cons_append, hread]
    have hdeep : nestingIn (named names fields) ≤ maxDepth - 1 ↔
        nestingIn (named names fields) < maxDepth := by
      rw [maxDepth]
      omega
    simp only [hdeep]
    split_ifs <;> rfl

/-- What begins with a bracket is no object. -/
theorem fieldsNamed?_array (names : List String) (items : List Json) :
    fieldsNamed? names (text (array items)) = none := by
  have hskip : ∀ cs, skipBlanks ('[' :: cs) = '[' :: cs := fun _ => rfl
  rw [fieldsNamed?, toList_text_array]
  dsimp only
  rw [hskip]
  rfl

/-- What begins with a brace is no array. -/
theorem readValue_brace_ne_array {lone : Option Char} {depth fuel : Nat} {cs rest : List Char}
    {items : List Json} :
    readValue lone depth fuel ('\x7b' :: cs) ≠ some (array items, rest) := by
  cases fuel with
  | zero => simp [readValue]
  | succ fuel =>
    have hskip : skipBlanks ('\x7b' :: cs) = '\x7b' :: cs := rfl
    intro h
    rw [readValue, hskip] at h
    by_cases hdepth : depth = 0
    · simp [hdepth] at h
    · simp only [hdepth, if_false] at h
      split at h
      · cases h
      · obtain ⟨p, -, hp⟩ := Option.map_eq_some_iff.1 h
        cases hp

theorem read?_object_ne_array (fields : List (String × Json)) (items : List Json) :
    read? (text (object fields)) ≠ some (array items) := by
  intro h
  rw [read?, toList_text_object, Option.bind_eq_bind, Option.bind_eq_some_iff] at h
  obtain ⟨⟨value, rest⟩, hvalue, hrest⟩ := h
  dsimp only at hrest
  split_ifs at hrest
  obtain rfl := Option.some.inj hrest
  exact readValue_brace_ne_array hvalue

end Json

namespace PagedSearch

variable {fields : List (String × Json)} {name : String} {j page : Json}

theorem single?_eq_some_iff :
    single? fields name = some j ↔ (fields.filter fun f => f.1 == name) = [(name, j)] := by
  rw [single?]
  constructor
  · intro h
    split at h
    · next f hf =>
      obtain rfl := Option.some.inj h
      have hname := (List.mem_filter.1 (hf ▸ List.mem_singleton_self f)).2
      rw [hf, ← beq_iff_eq.1 hname]
    · cases h
  · intro h
    rw [h]

theorem mem_iff_of_single? (h : single? fields name = some j) (value : Json) :
    (name, value) ∈ fields ↔ value = j := by
  have hmem : (name, value) ∈ (fields.filter fun f => f.1 == name) ↔
      (name, value) ∈ fields := by
    rw [List.mem_filter, beq_self_eq_true]
    exact and_iff_left rfl
  rw [← hmem, single?_eq_some_iff.1 h, List.mem_singleton, Prod.mk.injEq]
  exact and_iff_right rfl

theorem single?_named {names : List String} (h : name ∈ names) :
    single? (Json.named names fields) name = single? fields name := by
  have hfilter : ((Json.named names fields).filter fun f => f.1 == name) =
      fields.filter fun f => f.1 == name := by
    rw [Json.named, List.filter_filter]
    refine List.filter_congr fun f _ => ?_
    cases hf : f.1 == name with
    | false => rfl
    | true => rw [beq_iff_eq.1 hf, List.contains_iff_mem.2 h]; rfl
  rw [single?, single?, hfilter]

theorem nestingIn_named_lt_iff (hsearch : single? fields "search" = some j)
    (hpage : single? fields "page" = some page) :
    Json.nestingIn (Json.named ["search", "page"] fields) < Json.maxDepth ↔
      j.nesting < Json.maxDepth ∧ page.nesting < Json.maxDepth := by
  have hlt : ∀ n, n < Json.maxDepth ↔ n ≤ Json.maxDepth - 1 := by
    intro n
    rw [Json.maxDepth]
    omega
  simp only [hlt, Json.nestingIn_le_iff, Json.named, List.mem_filter, List.contains_iff_mem,
    List.mem_cons, List.not_mem_nil, or_false]
  constructor
  · intro h
    exact ⟨h ("search", j) ⟨(mem_iff_of_single? hsearch j).2 rfl, .inl rfl⟩,
      h ("page", page) ⟨(mem_iff_of_single? hpage page).2 rfl, .inr rfl⟩⟩
  · rintro ⟨hj, hp⟩ ⟨name, value⟩ ⟨hmem, rfl | rfl⟩
    · obtain rfl := (mem_iff_of_single? hsearch value).1 hmem
      exact hj
    · obtain rfl := (mem_iff_of_single? hpage value).1 hmem
      exact hp

/-- The number of a page does not nest. -/
theorem ofParts?_eq_none (h : ¬page.nesting < Json.maxDepth) : ofParts? j page = none := by
  have hnone : pageOfJson? page = none := by
    cases page with
    | number => exact absurd (Nat.zero_lt_succ _) h
    | null | bool | string | array | object => rfl
  rw [ofParts?, hnone]
  cases (Search.ofJson j).toOption <;> rfl

/-- So only the search is left to nest too deep. -/
theorem ite_ofParts? :
    (if j.nesting < Json.maxDepth ∧ page.nesting < Json.maxDepth then ofParts? j page else none) =
      if j.nesting < Json.maxDepth then ofParts? j page else none := by
  by_cases hpage : page.nesting < Json.maxDepth
  · simp only [hpage, and_true]
  · simp only [hpage, and_false, ofParts?_eq_none hpage, ite_self]

/-- **An embedded search is read as by itself.** Of an object that was written, the search and the
page count that are there once, whatever stands beside them and in whatever order, and the search
has one level of nesting less than there is without the object. -/
theorem ofText?_object (h : Json.AreNormalIn fields) : ofText? (Json.object fields).text =
    (single? fields "search").bind fun j => (single? fields "page").bind fun page =>
      if j.nesting < Json.maxDepth then ofParts? j page else none := by
  rw [ofText?]
  -- The reader of arrays comes first, and takes no object.
  split
  · next hread => exact absurd hread (Json.read?_object_ne_array fields _)
  rw [Json.fieldsNamed?_text _ h]
  have hs : single? (Json.named ["search", "page"] fields) "search" = single? fields "search" :=
    single?_named (by decide)
  have hp : single? (Json.named ["search", "page"] fields) "page" = single? fields "page" :=
    single?_named (by decide)
  cases hsearch : single? fields "search" with
  | none => split_ifs <;> simp [hs, hsearch]
  | some j =>
    cases hpage : single? fields "page" with
    | none => split_ifs <;> simp [hs, hp, hsearch, hpage]
    | some page =>
      rw [Option.bind_some, Option.bind_some, ← ite_ofParts?]
      simp only [nestingIn_named_lt_iff hsearch hpage]
      split_ifs
      · simp [hs, hp, hsearch, hpage]
      · rfl

/-- In an array the two stand one after the other, and nothing beside them. -/
theorem ofText?_array (hj : Json.IsNormal j) (hpage : Json.IsNormal page) :
    ofText? (Json.array [j, page]).text =
      if j.nesting < Json.maxDepth then ofParts? j page else none := by
  have hdepth : (Json.array [j, page]).nesting ≤ Json.maxDepth ↔
      j.nesting < Json.maxDepth ∧ page.nesting < Json.maxDepth := by
    rw [Json.nesting, Json.nestingOf, Json.nestingOf, Json.nestingOf]
    omega
  have hnormal : Json.IsNormal (.array [j, page]) := ⟨hj, hpage, trivial⟩
  rw [ofText?, Json.fieldsNamed?_array, Json.read?_text hnormal]
  rw [← ite_ofParts?]
  simp only [hdepth]
  split_ifs <;> rfl

section Text

variable {p : PagedSearch}

/-- The fields are in the order in which they are written. -/
def json (p : PagedSearch) : Json :=
  .object [("search", p.search.json), ("page", .number (Digits.natText p.page.toNat))]

theorem text_eq_text_json (p : PagedSearch) : p.text = p.json.text := by
  have hopen : "\x7b\"search\":" = "\x7b" ++ (Json.quote "search" ++ ":") := by decide
  have hnext : ",\"page\":" = "," ++ (Json.quote "page" ++ ":") := by decide
  rw [text, json, Json.text, Search.text, hopen, hnext]
  simp only [Json.fieldTexts, Json.text, String.intercalate_cons_cons,
    String.intercalate_singleton, String.append_assoc]

theorem pageOfJson?_natText (n : UInt64) :
    pageOfJson? (.number (Digits.natText n.toNat)) = some n := by
  rw [pageOfJson?, readUInt64?_of_toNat? (Digits.toNat?_natText _), if_pos n.toNat_lt,
    UInt64.ofNat_toNat]

/-- **A paged search is read back exactly if its search is**, with the same page. The level that
the object takes is one that no search needs. -/
theorem ofText?_text (ha : ∀ c ∈ p.search.leaves, c.HasArity)
    (hv : ∀ c ∈ p.search.leaves, ∀ v ∈ c.values, v.isEncodable = true) :
    ofText? p.text = (Search.ofText p.search.text).toOption.map fun s => ⟨s, p.page⟩ := by
  have hnormal : Json.AreNormalIn
      [("search", p.search.json), ("page", .number (Digits.natText p.page.toNat))] :=
    ⟨Search.isNormal_json hv, Json.isNumeral_natText _, trivial⟩
  have hread : Search.ofJson p.search.json =
      .ok (p.search.mapConditions (Condition.reread p.search.format)) :=
    Search.ofJson_json_of_isEncodable ha hv
  have hdeep : p.search.json.nesting < Json.maxDepth ↔ p.search.height ≤ 63 := by
    rw [Search.nesting_json hv, Json.maxDepth]
    omega
  rw [text_eq_text_json, json, ofText?_object hnormal, Search.ofText_text ha hv]
  change (if _ then ofParts? p.search.json (.number (Digits.natText p.page.toNat)) else none) = _
  simp only [hdeep]
  split_ifs
  · rw [ofParts?, hread, pageOfJson?_natText]
    rfl
  · rfl

end Text

end PagedSearch

end RecordSearch
