import RecordSearch.Proofs.Filtering

/-!
Pages are slices of the whole result. The pass for one page stops early, and the position that it
skips to stays at the greatest 64 bit number where the product is beyond it. Neither shows, since no
list of records is that long.

* `Selection.matched_window`: a pass finds what skipping and taking leave of the accepted records;
* `Search.filterPage_of_plan`: a page holds the items from the exact product on;
* `Search.pages_slice_filter`: pages against the whole result, one by one and put together.
-/

namespace RecordSearch

theorem Selection.matched_window {α : Type} (accepts : α → Bool) (skip take : Nat)
    (records : List α) : (window accepts skip take records).matched =
      ((records.filter accepts).drop skip).take take := by
  induction records generalizing skip take with
  | nil => cases take <;> simp [window]
  | cons r rest ih =>
    cases take with
    | zero => simp [window]
    | succ take =>
      cases hr : accepts r with
      | false => simp [window, hr, ih]
      | true => cases skip <;> simp [window, hr, ih]

namespace Page

variable {α : Type} (p : Page) {items : List α}

/-- The position of the first item, which need not fit into 64 bits. -/
def start : Nat := p.number.toNat * p.size.toNat

theorem offset_eq : p.offset = min p.start (UInt64.size - 1) := rfl

/-- Where the position is cut down, it is behind the last item all the same. -/
theorem drop_offset (h : items.length < UInt64.size) :
    items.drop p.offset = items.drop p.start := by
  rcases Nat.le_total p.start (UInt64.size - 1) with hfits | hbeyond
  · rw [offset_eq, Nat.min_eq_left hfits]
  · have hlast : items.length ≤ UInt64.size - 1 := Nat.le_sub_one_of_lt h
    rw [offset_eq, Nat.min_eq_right hbeyond, List.drop_eq_nil_of_le hlast,
      List.drop_eq_nil_of_le (Nat.le_trans hlast hbeyond)]

theorem slice_eq_extract (h : items.length < UInt64.size) :
    p.slice items = items.extract p.start (p.start + p.size.toNat) := by
  rw [slice, p.drop_offset h, limit, List.extract_eq_take_drop, Nat.add_sub_cancel_left]

end Page

/-- Slices of one size, from the first one on, are the items up to the end of the last slice. -/
theorem flatten_extract_range {α : Type} (items : List α) (size count : Nat) :
    ((List.range count).map fun n => items.extract (n * size) (n * size + size)).flatten =
      items.take (count * size) := by
  induction count with
  | zero => simp
  | succ count ih =>
    rw [List.range_succ, List.map_append, List.flatten_append, ih, Nat.succ_mul, List.take_add]
    simp [List.extract_eq_take_drop]

namespace Search

variable {s : Search} {schema : Schema} {e : Expression} {α : Type}

theorem filterPage_of_plan (h : s.plan schema = .ok e) (row : α → Row) {records : List α}
    (hlength : records.length < UInt64.size) (page : Page) :
    s.filterPage schema row page records =
      .ok ((records.filter fun r => e.evaluate (row r)).extract page.start
        (page.start + page.size.toNat)) := by
  have hfilter : (records.filter fun r => e.evaluate (row r)).length < UInt64.size :=
    Nat.lt_of_le_of_lt (List.length_filter_le _ _) hlength
  rw [filterPage, select_of_compile (compile_of_plan h), Except.map, Selection.ofPage,
    Selection.matched_window, ← page.slice_eq_extract hfilter, Page.slice]
  simp only [Expression.predicate_eq_evaluate]

/-- The pages from number zero on, as many as are asked for, one after the other. -/
def firstPages (s : Search) (schema : Schema) (row : α → Row) (size : UInt64) (count : Nat)
    (records : List α) : Except QueryError (List α) :=
  ((List.range count).mapM fun n =>
    s.filterPage schema row ⟨UInt64.ofNat n, size⟩ records).map List.flatten

theorem firstPages_of_plan (h : s.plan schema = .ok e) (row : α → Row) {records : List α}
    (hlength : records.length < UInt64.size) (size : UInt64) {count : Nat}
    (hcount : count ≤ UInt64.size) :
    s.firstPages schema row size count records =
      .ok ((records.filter fun r => e.evaluate (row r)).take (count * size.toNat)) := by
  have hpage : ∀ n ∈ List.range count, s.filterPage schema row ⟨UInt64.ofNat n, size⟩ records =
      .ok ((records.filter fun r => e.evaluate (row r)).extract (n * size.toNat)
        (n * size.toNat + size.toNat)) := by
    intro n hn
    have hnumber : (UInt64.ofNat n).toNat = n :=
      UInt64.toNat_ofNat_of_lt' (Nat.lt_of_lt_of_le (List.mem_range.1 hn) hcount)
    rw [filterPage_of_plan h row hlength, Page.start, hnumber]
  have hpages := mapM_map_ok (f := id)
    (g := fun n => s.filterPage schema row ⟨UInt64.ofNat n, size⟩ records) hpage
  rw [List.map_id] at hpages
  rw [firstPages, hpages, Except.map, flatten_extract_range]

/-- **Pages are slices.** If a search has a plan, a page holds the items of the whole result from
position number times size on, as many as the size says, with the product taken exactly. Pages of
one size put together in their order are the beginning of the whole result, and all of it as soon
as there are as many pages as items. -/
theorem pages_slice_filter (h : s.plan schema = .ok e) (row : α → Row) (records : List α)
    (hlength : records.length < UInt64.size) :
    ∃ whole, s.filter schema row records = .ok whole ∧
      (∀ page : Page, s.filterPage schema row page records =
        .ok (whole.extract (page.number.toNat * page.size.toNat)
          (page.number.toNat * page.size.toNat + page.size.toNat))) ∧
      ∀ size : UInt64, 0 < size → ∀ count ≤ UInt64.size,
        s.firstPages schema row size count records = .ok (whole.take (count * size.toNat)) ∧
          (whole.length ≤ count → s.firstPages schema row size count records = .ok whole) := by
  refine ⟨_, filter_of_plan h row records, filterPage_of_plan h row hlength, ?_⟩
  intro size hsize count hcount
  have hfirst := firstPages_of_plan h row hlength size hcount
  refine ⟨hfirst, fun hwhole => ?_⟩
  have hpos : 1 ≤ size.toNat := UInt64.lt_iff_toNat_lt.1 hsize
  rw [hfirst, List.take_of_length_le (Nat.le_trans hwhole (Nat.le_mul_of_pos_right count hpos))]

/-- Two pages of a result of three, and one whose position is beyond 64 bits. -/
theorem pages_slice_filter_names :
    let schema : Schema := ⟨[⟨"FullName", .string⟩]⟩
    let s := all.addCondition (.notContains "fullname" (.text "Den"))
    let rows : List Row := [[.text "Ken"], [.text "Dennis"], [.text "Ada"], [.text "Ken"]]
    rows.length < UInt64.size ∧
      s.filterPage schema id ⟨1, 2⟩ rows = .ok [[.text "Ken"]] ∧
      s.filterPage schema id ⟨18446744073709551615, 2⟩ rows = .ok [] ∧
      s.firstPages schema id 2 3 rows = .ok [[.text "Ken"], [.text "Ada"], [.text "Ken"]] := by
  intro schema s rows
  obtain ⟨whole, hwhole, hpage, hpages⟩ :=
    @pages_slice_filter s schema _ Row rfl id rows (by decide)
  obtain rfl : [[.text "Ken"], [.text "Ada"], [.text "Ken"]] = whole := Except.ok.inj hwhole
  exact ⟨by decide, hpage _, hpage _, (hpages 2 (by decide) 3 (by decide)).2 (by decide)⟩

end Search

end RecordSearch
