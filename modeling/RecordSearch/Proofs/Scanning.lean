import RecordSearch.Proofs.Paging
import RecordSearch.Selection.Log

/-!
How many records the pass for one page looks at. It ends with the last item of the page, and only a
page that is not full makes it look at all of them.

* `Selection.FilledAt`: how many records it takes to find as many accepted ones;
* `Selection.filledAt_window` and `Selection.scanned_window_of_lt`: that is where a pass ends, unless
  there are too few;
* `Selection.window_append`: what lies behind does not count;
* `Search.page_scans_until_full`: the pass for a page, and the message about it.
-/

namespace RecordSearch

namespace Selection

variable {α : Type} {accepts : α → Bool} {records seen : List α} {count skip take n m : Nat}

theorem eq_of_parts {a b : Selection α} (hmatched : a.matched = b.matched)
    (hscanned : a.scanned = b.scanned) : a = b := by
  cases a
  cases b
  cases hmatched
  cases hscanned
  rfl

/-- It takes the first `n` records, and no fewer, to find `count` accepted ones. -/
structure FilledAt (accepts : α → Bool) (count : Nat) (records : List α) (n : Nat) : Prop where
  le_length : n ≤ records.length
  countP_take : (records.take n).countP accepts = count
  countP_take_lt : ∀ m < n, (records.take m).countP accepts < count

namespace FilledAt

theorem zero (accepts : α → Bool) (records : List α) : FilledAt accepts 0 records 0 :=
  ⟨Nat.zero_le _, rfl, fun _ h => absurd h (Nat.not_lt_zero _)⟩

/-- A record in front takes one more look, and counts if it is accepted. -/
theorem cons {r : α} (h : FilledAt accepts count records n)
    (hpos : 0 < count + if accepts r then 1 else 0) :
    FilledAt accepts (count + if accepts r then 1 else 0) (r :: records) (n + 1) := by
  constructor
  · exact Nat.succ_le_succ h.le_length
  · rw [List.take_succ_cons, List.countP_cons, h.countP_take]
  · intro m hm
    cases m with
    | zero => exact hpos
    | succ m =>
      rw [List.take_succ_cons, List.countP_cons]
      exact Nat.add_lt_add_right (h.countP_take_lt m (Nat.lt_of_succ_lt_succ hm)) _

theorem append (h : FilledAt accepts count seen n) (tail : List α) :
    FilledAt accepts count (seen ++ tail) n := by
  have htake : ∀ m ≤ n, (seen ++ tail).take m = seen.take m := by
    intro m hm
    exact List.take_append_of_le_length (Nat.le_trans hm h.le_length)
  constructor
  · exact Nat.le_trans h.le_length (by simp)
  · rw [htake n (Nat.le_refl n), h.countP_take]
  · intro m hm
    rw [htake m (Nat.le_of_lt hm)]
    exact h.countP_take_lt m hm

theorem unique (hn : FilledAt accepts count records n) (hm : FilledAt accepts count records m) :
    n = m := by
  apply Nat.le_antisymm
  · apply Nat.le_of_not_lt
    intro hlt
    exact Nat.ne_of_lt (hn.countP_take_lt m hlt) hm.countP_take
  · apply Nat.le_of_not_lt
    intro hlt
    exact Nat.ne_of_lt (hm.countP_take_lt n hlt) hn.countP_take

end FilledAt

theorem window_zero (accepts : α → Bool) (skip : Nat) (records : List α) :
    window accepts skip 0 records = ⟨[], 0⟩ := by
  cases records <;> rfl

/-- One more record is looked at, and what is left to find goes down by one if it is accepted. -/
theorem exists_scanned_window_cons (accepts : α → Bool) (skip take : Nat) (r : α)
    (records : List α) : ∃ skip' take', (take' = 0 → skip' = 0) ∧
      skip' + take' + (if accepts r then 1 else 0) = skip + (take + 1) ∧
      (window accepts skip (take + 1) (r :: records)).scanned =
        (window accepts skip' take' records).scanned + 1 := by
  cases hr : accepts r with
  | false => exact ⟨skip, take + 1, by simp, by simp, by simp [window, hr]⟩
  | true =>
    cases skip with
    | zero => exact ⟨0, take, fun _ => rfl, by simp, by simp [window, hr]⟩
    | succ skip =>
      refine ⟨skip, take + 1, by simp, ?_, by simp [window, hr]⟩
      simp only [if_true]
      omega

/-- A pass that finds enough ends where it has found it. -/
theorem filledAt_window (hskip : take = 0 → skip = 0)
    (h : skip + take ≤ records.countP accepts) :
    FilledAt accepts (skip + take) records (window accepts skip take records).scanned := by
  -- The first record leaves a pass over the rest that has to find as many, or one fewer.
  induction records generalizing skip take with
  | nil =>
    obtain ⟨rfl, rfl⟩ := Nat.add_eq_zero_iff.1 (Nat.le_zero.1 h)
    exact .zero accepts []
  | cons r rest ih =>
    cases take with
    | zero =>
      rw [hskip rfl, window_zero]
      exact .zero accepts _
    | succ take =>
      obtain ⟨skip', take', hskip', hsum, hscanned⟩ :=
        exists_scanned_window_cons accepts skip take r rest
      rw [hscanned, ← hsum]
      rw [List.countP_cons, ← hsum] at h
      exact (ih hskip' (Nat.le_of_add_le_add_right h)).cons (by omega)

/-- A pass that does not looks at all records. -/
theorem scanned_window_of_lt (hskip : take = 0 → skip = 0)
    (h : records.countP accepts < skip + take) :
    (window accepts skip take records).scanned = records.length := by
  induction records generalizing skip take with
  | nil => cases take <;> rfl
  | cons r rest ih =>
    cases take with
    | zero =>
      rw [hskip rfl] at h
      exact absurd h (Nat.not_lt_zero _)
    | succ take =>
      obtain ⟨skip', take', hskip', hsum, hscanned⟩ :=
        exists_scanned_window_cons accepts skip take r rest
      rw [List.countP_cons, ← hsum] at h
      rw [hscanned, ih hskip' (Nat.lt_of_add_lt_add_right h), List.length_cons]

/-- Behind records that hold enough, it makes no difference what follows. -/
theorem window_append (hskip : take = 0 → skip = 0) (h : skip + take ≤ seen.countP accepts)
    (tail : List α) : window accepts skip take (seen ++ tail) = window accepts skip take seen := by
  apply eq_of_parts
  · rw [List.countP_eq_length_filter] at h
    have htake : take ≤ ((seen.filter accepts).drop skip).length := by
      rw [List.length_drop]
      omega
    rw [matched_window, matched_window, List.filter_append,
      List.drop_append_of_le_length (by omega), List.take_append_of_le_length htake]
  · have hmore : skip + take ≤ (seen ++ tail).countP accepts := by
      rw [List.countP_append]
      exact Nat.le_add_right_of_le h
    exact (filledAt_window hskip hmore).unique ((filledAt_window hskip h).append tail)

/-- Nor does it behind the records that a pass looks at, if it finds enough. -/
theorem window_replace (hskip : take = 0 → skip = 0)
    (h : FilledAt accepts (skip + take) records n) (others : List α) :
    window accepts skip take (records.take n ++ others) = window accepts skip take records := by
  have hseen : skip + take ≤ (records.take n).countP accepts := Nat.le_of_eq h.countP_take.symm
  calc window accepts skip take (records.take n ++ others)
      = window accepts skip take (records.take n) := window_append hskip hseen others
    _ = window accepts skip take (records.take n ++ records.drop n) :=
        (window_append hskip hseen _).symm
    _ = window accepts skip take records := by rw [List.take_append_drop]

end Selection

namespace Page

variable (p : Page) {count : Nat}

theorem offset_of_limit_zero (h : p.limit = 0) : p.offset = 0 := by
  have hsize : p.size.toNat = 0 := h
  rw [offset_eq, start, hsize, Nat.mul_zero, Nat.zero_min]

/-- A page that ends among items that can be counted begins at its exact position. -/
theorem offset_add_limit_of_le (h : p.start < UInt64.size ∨ count < UInt64.size)
    (hend : p.start + p.size.toNat ≤ count) : p.offset + p.limit = p.start + p.size.toNat := by
  rw [offset_eq, limit]
  omega

/-- One that ends behind them does so from the position that it skips to as well. -/
theorem lt_offset_add_limit (h : p.start < UInt64.size ∨ count < UInt64.size)
    (hend : count < p.start + p.size.toNat) : count < p.offset + p.limit := by
  have hstart : p.size.toNat = 0 → p.start = 0 := by
    intro hsize
    rw [start, hsize, Nat.mul_zero]
  rw [offset_eq, limit]
  omega

end Page

namespace Selection

variable {α : Type} {accepts : α → Bool} {records : List α} {page : Page}

theorem ofPage_some (accepts : α → Bool) (page : Page) (records : List α) :
    ofPage accepts (some page) records = window accepts page.offset page.limit records :=
  rfl

theorem ofPage_of_size_zero (h : page.size = 0) :
    ofPage accepts (some page) records = ⟨[], 0⟩ := by
  have hlimit : page.limit = 0 := by
    rw [Page.limit, h]
    rfl
  rw [ofPage_some, hlimit, window_zero]

theorem counted_of_length (accepts : α → Bool)
    (hlength : page.start < UInt64.size ∨ records.length < UInt64.size) :
    page.start < UInt64.size ∨ records.countP accepts < UInt64.size :=
  hlength.imp_right (Nat.lt_of_le_of_lt List.countP_le_length)

theorem filledAt_ofPage (hlength : page.start < UInt64.size ∨ records.length < UInt64.size)
    (h : page.start + page.size.toNat ≤ records.countP accepts) :
    FilledAt accepts (page.start + page.size.toNat) records
      (ofPage accepts (some page) records).scanned := by
  have hend := page.offset_add_limit_of_le (counted_of_length accepts hlength) h
  rw [← hend] at h ⊢
  exact filledAt_window page.offset_of_limit_zero h

theorem ofPage_replace (hlength : page.start < UInt64.size ∨ records.length < UInt64.size)
    (h : page.start + page.size.toNat ≤ records.countP accepts) (others : List α) :
    ofPage accepts (some page)
        (records.take (ofPage accepts (some page) records).scanned ++ others) =
      ofPage accepts (some page) records := by
  have hfilled := filledAt_ofPage hlength h
  rw [← page.offset_add_limit_of_le (counted_of_length accepts hlength) h] at hfilled
  exact window_replace page.offset_of_limit_zero hfilled others

theorem scanned_ofPage_of_lt (hlength : page.start < UInt64.size ∨ records.length < UInt64.size)
    (h : records.countP accepts < page.start + page.size.toNat) :
    (ofPage accepts (some page) records).scanned = records.length := by
  apply scanned_window_of_lt page.offset_of_limit_zero
  exact page.lt_offset_add_limit (counted_of_length accepts hlength) h

end Selection

namespace Search

variable {s : Search} {schema : Schema} {accepts : Row → Bool} {α : Type}

theorem selectMessages_of_compile (h : s.compile schema = .ok accepts) (row : α → Row)
    (page : Option Page) (records : List α) :
    s.selectMessages schema row page records = s.planMessages schema ++
      [.selected (Selection.ofPage (fun r => accepts (row r)) page records).matched.length
        (Selection.ofPage (fun r => accepts (row r)) page records).scanned] := by
  rw [selectMessages, select_of_compile h]

theorem filterPage_of_compile (h : s.compile schema = .ok accepts) (row : α → Row) (page : Page)
    (records : List α) :
    s.filterPage schema row page records =
      .ok (Selection.ofPage (fun r => accepts (row r)) (some page) records).matched := by
  rw [filterPage, select_of_compile h]
  rfl

/-- **The pass for a page ends when the page is full.** Of a page of size zero it looks at no
record. For the last item of any other page a certain number of accepted records has to be found. If
there are that many, the pass looks at the shortest beginning of the records that holds them, and
whatever stands behind it changes neither the page nor how many were looked at; if there are fewer,
the pass looks at all records. The message about a search for a page has the length of the page and
the number of records that were looked at. Where the position of a page does not fit into 64 bits,
the length of the list has to. -/
theorem page_scans_until_full :
    (∀ (α : Type) (accepts : α → Bool) (records : List α) (page : Page),
      page.start < UInt64.size ∨ records.length < UInt64.size → ∃ taken scanned,
        Selection.ofPage accepts (some page) records = ⟨taken, scanned⟩ ∧
        (page.size = 0 → scanned = 0) ∧
        ∀ needed, needed = page.number.toNat * page.size.toNat + page.size.toNat →
          (needed ≤ records.countP accepts →
            Selection.FilledAt accepts needed records scanned ∧
            ∀ others, Selection.ofPage accepts (some page) (records.take scanned ++ others) =
              ⟨taken, scanned⟩) ∧
          (records.countP accepts < needed → scanned = records.length)) ∧
    ∀ (s : Search) (schema : Schema) (accepts : Row → Bool), s.compile schema = .ok accepts →
      ∀ (α : Type) (row : α → Row) (page : Page) (records : List α), ∃ taken scanned,
        Selection.ofPage (fun r => accepts (row r)) (some page) records = ⟨taken, scanned⟩ ∧
        s.filterPage schema row page records = .ok taken ∧
        s.selectMessages schema row (some page) records =
          s.planMessages schema ++ [.selected taken.length scanned] := by
  constructor
  · intro α accepts records page hlength
    refine ⟨_, (Selection.ofPage accepts (some page) records).scanned, rfl, ?_, ?_⟩
    · intro hsize
      rw [Selection.ofPage_of_size_zero hsize]
    · rintro needed rfl
      refine ⟨fun h => ⟨?_, ?_⟩, ?_⟩
      · exact Selection.filledAt_ofPage hlength h
      · exact Selection.ofPage_replace hlength h
      · exact Selection.scanned_ofPage_of_lt hlength
  · intro s schema accepts h α row page records
    exact ⟨_, _, rfl, filterPage_of_compile h row page records,
      selectMessages_of_compile h row (some page) records⟩

/-- The second page of one item ends in the third of five records, whatever follows there. A page
whose position does not fit into 64 bits is not full, and the pass for it looks at all five. -/
theorem page_scans_until_full_names :
    let schema : Schema := ⟨[⟨"FullName", .string⟩]⟩
    let s := all.addCondition (.notContains "fullname" (.text "Den"))
    let accepts : Row → Bool := Expression.predicate
      (.compare ⟨0, "FullName", false⟩ (.text .default) .contains (.text "Den") true)
    let rows : List Row := [[.text "Ken"], [.text "Dennis"], [.text "Ada"], [.text "Ken"], [.null]]
    rows.length < UInt64.size ∧ s.compile schema = .ok accepts ∧ 2 ≤ rows.countP accepts ∧
      Selection.FilledAt accepts 2 rows 3 ∧
      (∀ others, Selection.ofPage accepts (some ⟨1, 1⟩) (rows.take 3 ++ others) =
        ⟨[[.text "Ada"]], 3⟩) ∧
      s.filterPage schema id ⟨1, 1⟩ rows = .ok [[.text "Ada"]] ∧
      s.selectMessages schema id (some ⟨1, 1⟩) rows = s.planMessages schema ++ [.selected 1 3] ∧
      (Selection.ofPage accepts (some ⟨18446744073709551615, 2⟩) rows).scanned = rows.length := by
  intro schema s accepts rows
  obtain ⟨hpages, hmessages⟩ := page_scans_until_full
  have hlength : rows.length < UInt64.size := by decide
  have hcompile : s.compile schema = .ok accepts := rfl
  have hsecond : Selection.ofPage accepts (some ⟨1, 1⟩) rows = ⟨[[.text "Ada"]], 3⟩ := rfl
  have henough : 2 ≤ rows.countP accepts := by decide
  obtain ⟨taken, scanned, hpass, -, hneeded⟩ := hpages Row accepts rows ⟨1, 1⟩ (.inr hlength)
  obtain ⟨rfl, rfl⟩ := Selection.mk.inj (hpass.symm.trans hsecond)
  obtain ⟨hfilled, hothers⟩ := (hneeded 2 rfl).1 henough
  obtain ⟨taken, scanned, hpass, hpage, hmessage⟩ := hmessages s schema accepts hcompile Row id
    ⟨1, 1⟩ rows
  obtain ⟨rfl, rfl⟩ := Selection.mk.inj (hpass.symm.trans hsecond)
  obtain ⟨taken, scanned, hpass, -, hneeded⟩ := hpages Row accepts rows
    ⟨18446744073709551615, 2⟩ (.inr hlength)
  have hlate : (Selection.ofPage accepts (some ⟨18446744073709551615, 2⟩) rows).scanned =
      rows.length := by
    rw [hpass]
    exact (hneeded _ rfl).2 (by decide)
  exact ⟨hlength, hcompile, henough, hfilled, hothers, hpage, hmessage, hlate⟩

end Search

end RecordSearch
