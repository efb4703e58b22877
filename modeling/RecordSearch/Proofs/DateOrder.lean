import RecordSearch.Proofs.DateFields
import RecordSearch.Proofs.Operands

/-!
The order of date texts. Numbers of one width are ordered as their digits are, so texts that show
the same numbers in the same places are ordered by these numbers from the left. With an offset at
the end, or a year of other than four digits, they are not.

* `compare_eq_compareLex`: texts compare character by character;
* `Digits.compareLex_padded`: digits of one width compare as the numbers that they are;
* `DatePattern.compareLex_text`: and so do texts of a pattern without an offset;
* `DateFormat.render_orders`: the order of renderings, of instants and of conditions.
-/

namespace RecordSearch

open Timestamp (Fields)

section Lexicographic

variable {α β : Type} {cmp : α → α → Ordering}

/-- The first parts decide, if they are of one length. -/
theorem compareLex_append {as bs as' bs' : List α} (h : as.length = bs.length) :
    List.compareLex cmp (as ++ as') (bs ++ bs') =
      (List.compareLex cmp as bs).then (List.compareLex cmp as' bs') := by
  induction as generalizing bs with
  | nil =>
    obtain rfl := List.length_eq_zero_iff.1 h.symm
    rfl
  | cons a as ih =>
    cases bs with
    | nil => cases h
    | cons b bs =>
      simp only [List.cons_append, List.compareLex_cons_cons, Ordering.then_assoc,
        ih (Nat.succ.inj h)]

theorem compareLex_singleton (a b : α) : List.compareLex cmp [a] [b] = cmp a b := by
  rw [List.compareLex_cons_cons, List.compareLex_nil_nil, Ordering.then_eq]

theorem isLE_compareLex_cons {a b : Int} {as bs : List Int} :
    (List.compareLex compare (a :: as) (b :: bs)).isLE = true ↔
      a < b ∨ a = b ∧ (List.compareLex compare as bs).isLE = true := by
  rw [List.compareLex_cons_cons]
  cases h : compare a b with
  | lt => simp [Int.compare_eq_lt.1 h]
  | eq =>
    have hab := Int.compare_eq_eq.1 h
    simp [hab]
  | gt =>
    have hab := Int.compare_eq_gt.1 h
    simp only [Ordering.gt_then, Ordering.isLE, Bool.false_eq_true, false_iff]
    omega

theorem compareLex_eq_lt_iff (as bs : List Char) :
    List.compareLex compare as bs = .lt ↔ as < bs := by
  induction as generalizing bs with
  | nil =>
    cases bs with
    | nil => simp [List.compareLex_nil_nil]
    | cons b bs => simp [List.compareLex_nil_cons]
  | cons a as ih =>
    cases bs with
    | nil => simp [List.compareLex_cons_nil]
    | cons b bs =>
      rw [List.compareLex_cons_cons, List.cons_lt_cons_iff, Ordering.then_eq_lt, ih,
        Std.LawfulEqOrd.compare_eq_iff_eq]
      exact or_congr_left compareOfLessAndEq_eq_lt

theorem compare_eq_compareLex (s t : String) :
    compare s t = List.compareLex compare s.toList t.toList := by
  change compareOfLessAndEq s t = _
  have heq : List.compareLex compare s.toList t.toList = .eq ↔ s.toList = t.toList :=
    Std.LawfulEqCmp.compare_eq_iff_eq
  rw [compareOfLessAndEq]
  simp only [String.lt_iff, ← compareLex_eq_lt_iff, String.ext_iff, ← heq]
  cases List.compareLex compare s.toList t.toList <;> rfl

end Lexicographic

namespace Digits

theorem compare_digit {c d : Char} (hc : c.isDigit = true) (hd : d.isDigit = true) :
    compare c d = compare (digit c) (digit d) := by
  have hc' := toNat_of_isDigit hc
  have hd' := toNat_of_isDigit hd
  have hlt : c < d ↔ digit c < digit d := by
    change c.toNat < d.toNat ↔ _
    omega
  have heq : c = d ↔ digit c = digit d := by
    rw [← Char.toNat_inj]
    omega
  change compareOfLessAndEq c d = compareOfLessAndEq (digit c) (digit d)
  simp only [compareOfLessAndEq, hlt, heq]

/-- Digits of one length compare as the numbers that they denote: the first place in which they
differ outweighs all the rest. -/
theorem compareLex_eq {cs ds : List Char} (hc : ∀ c ∈ cs, c.isDigit = true)
    (hd : ∀ d ∈ ds, d.isDigit = true) (hlen : cs.length = ds.length) :
    List.compareLex compare cs ds = compare (value cs) (value ds) := by
  induction cs generalizing ds with
  | nil =>
    obtain rfl := List.length_eq_zero_iff.1 hlen.symm
    rfl
  | cons c cs ih =>
    cases ds with
    | nil => cases hlen
    | cons d ds =>
      rw [List.forall_mem_cons] at hc hd
      replace hlen : cs.length = ds.length := Nat.succ.inj hlen
      have hcs := value_lt hc.2
      have hds := value_lt hd.2
      rw [List.compareLex_cons_cons, ih hc.2 hd.2 hlen, compare_digit hc.1 hd.1, value_cons,
        value_cons, ← hlen]
      rw [← hlen] at hds
      generalize 10 ^ cs.length = weight at hcs hds
      cases h : compare (digit c) (digit d) with
      | lt =>
        have hweight := Nat.mul_le_mul_left weight (Nat.compare_eq_lt.1 h)
        rw [Nat.mul_succ] at hweight
        exact (Nat.compare_eq_lt.2 (by omega)).symm
      | gt =>
        have hweight := Nat.mul_le_mul_left weight (Nat.compare_eq_gt.1 h)
        rw [Nat.mul_succ] at hweight
        exact (Nat.compare_eq_gt.2 (by omega)).symm
      | eq =>
        rw [Nat.compare_eq_eq.1 h]
        simp only [Ordering.eq_then, Nat.compare_eq_ite_lt, Nat.add_lt_add_iff_left]

theorem compareLex_padded {width a b : Nat} (hwidth : 0 < width) (ha : a < 10 ^ width)
    (hb : b < 10 ^ width) :
    List.compareLex compare (padded width a) (padded width b) = compare a b := by
  rw [compareLex_eq (fun _ => isDigit_of_mem_padded) (fun _ => isDigit_of_mem_padded)
    ((length_padded hwidth ha).trans (length_padded hwidth hb).symm), value_padded, value_padded]

end Digits

namespace DateItem

/-- The numbers that the item names. -/
def numbers (g : Fields) : DateItem → List Int
  | year => [g.year]
  | month => [g.month]
  | day => [g.day]
  | hour => [g.hour]
  | minute => [g.minute]
  | second => [g.second]
  | millis | pointMillis => [↑(g.nano / 1000000)]
  | fraction => [g.nano]
  | offset => [g.offset]
  | blank | literal _ => []

/-- The item always has the same width, given a year of four digits, in characters of one byte. -/
def isFixed : DateItem → Bool
  | fraction | offset => false
  | literal c => c.toNat < 128
  | _ => true

/-- Texts of the item, of one length, compare as its numbers. -/
def Ordered (g h : Fields) (item : DateItem) : Prop :=
  (item.text g).length = (item.text h).length ∧
    List.compareLex compare (item.text g) (item.text h) =
      List.compareLex compare (item.numbers g) (item.numbers h)

variable {g h : Fields} {item : DateItem}

theorem padded_ordered {width a b : Nat} (hwidth : 0 < width) (ha : a < 10 ^ width)
    (hb : b < 10 ^ width) :
    (Digits.padded width a).length = (Digits.padded width b).length ∧
      List.compareLex compare (Digits.padded width a) (Digits.padded width b) =
        List.compareLex compare [(a : Int)] [(b : Int)] := by
  have hcast : compare (a : Int) (b : Int) = compare a b := by
    change compareOfLessAndEq (a : Int) (b : Int) = compareOfLessAndEq a b
    simp only [compareOfLessAndEq, Int.ofNat_lt, Int.ofNat_inj]
  rw [Digits.length_padded hwidth ha, Digits.length_padded hwidth hb,
    Digits.compareLex_padded hwidth ha hb, compareLex_singleton, hcast]
  exact ⟨rfl, rfl⟩

theorem ordered_of_isFixed (hg : g.Fits) (hh : h.Fits) (hyear : 0 ≤ g.year ∧ g.year ≤ 9999)
    (hyear' : 0 ≤ h.year ∧ h.year ≤ 9999) (hitem : item.isFixed = true) : item.Ordered g h := by
  have hnano := hg.nano_lt
  have hnano' := hh.nano_lt
  cases item with
  | year =>
    have hord := @padded_ordered 4 g.year.toNat h.year.toNat (by decide) (by omega)
      (by omega)
    rw [Int.toNat_of_nonneg hyear.1, Int.toNat_of_nonneg hyear'.1] at hord
    simpa only [Ordered, text, numbers, yearText, if_pos hyear, if_pos hyear'] using hord
  | month => exact padded_ordered (by decide) hg.month_lt hh.month_lt
  | day => exact padded_ordered (by decide) hg.day_lt hh.day_lt
  | hour => exact padded_ordered (by decide) hg.hour_lt hh.hour_lt
  | minute => exact padded_ordered (by decide) hg.minute_lt hh.minute_lt
  | second => exact padded_ordered (by decide) hg.second_lt hh.second_lt
  | millis => exact padded_ordered (by decide) (by omega) (by omega)
  | pointMillis =>
    obtain ⟨hlen, hord⟩ := @padded_ordered 3 (g.nano / 1000000) (h.nano / 1000000) (by decide)
      (by omega) (by omega)
    refine ⟨by simp only [text, List.length_cons, hlen], ?_⟩
    rw [text, text, List.compareLex_cons_cons, Std.compare_self]
    exact hord
  | blank => exact ⟨rfl, rfl⟩
  | literal c =>
    refine ⟨rfl, ?_⟩
    rw [text, text, compareLex_singleton, Std.compare_self]
    rfl
  | fraction | offset => cases hitem

theorem toNat_lt_of_mem_padded {width n : Nat} {c : Char} (hc : c ∈ Digits.padded width n) :
    c.toNat < 128 := by
  have hdigit := Digits.toNat_of_isDigit (Digits.isDigit_of_mem_padded hc)
  omega

theorem toNat_lt_of_isFixed (hyear : 0 ≤ g.year ∧ g.year ≤ 9999) (hitem : item.isFixed = true)
    {c : Char} (hc : c ∈ item.text g) : c.toNat < 128 := by
  cases item with
  | year =>
    rw [text, yearText, if_pos hyear] at hc
    exact toNat_lt_of_mem_padded hc
  | month | day | hour | minute | second | millis => exact toNat_lt_of_mem_padded hc
  | pointMillis =>
    rcases List.mem_cons.1 hc with rfl | hc
    · decide
    · exact toNat_lt_of_mem_padded hc
  | blank =>
    obtain rfl := List.mem_singleton.1 hc
    decide
  | literal d =>
    obtain rfl := List.mem_singleton.1 hc
    exact of_decide_eq_true hitem
  | fraction | offset => cases hitem

end DateItem

namespace DatePattern

variable {g h : Fields} {p : DatePattern}

theorem compareLex_text (hp : ∀ item ∈ p, item.Ordered g h) :
    List.compareLex compare (p.flatMap (DateItem.text g)) (p.flatMap (DateItem.text h)) =
      List.compareLex compare (p.flatMap (DateItem.numbers g))
        (p.flatMap (DateItem.numbers h)) := by
  induction p with
  | nil => rfl
  | cons item rest ih =>
    rw [List.forall_mem_cons] at hp
    obtain ⟨⟨hlen, hord⟩, hrest⟩ := hp
    have hcount : (item.numbers g).length = (item.numbers h).length := by cases item <;> rfl
    simp only [List.flatMap_cons, compareLex_append hlen, compareLex_append hcount, hord, ih hrest]

end DatePattern

namespace Moment

/-- The date, the second of the day and the nanoseconds, which run on through a leap second. -/
def numbers (m : Moment) : List Int :=
  [m.date.year, m.date.month, m.date.day, m.second, m.nano]

/-- Before, at the same time or after. -/
def order (a b : Moment) : Ordering := List.compareLex compare a.numbers b.numbers

/-- A leap second is the last of its minute. -/
def LeapsAtEnd (m : Moment) : Prop := 1000000000 ≤ m.nano → m.second % 60 = 59

end Moment

namespace DateFormat

/-- The numbers that the pattern of the format names, from the left. -/
def numbers (f : DateFormat) (t : Timestamp) : List Int :=
  f.pattern.flatMap (DateItem.numbers (f.fields t))

/-- The order in the numbers that the format shows. -/
def order (f : DateFormat) (t u : Timestamp) : Ordering :=
  List.compareLex compare (f.numbers t) (f.numbers u)

/-- The year, in universal time or at the offset as the format has it, has at most four digits and
no sign. -/
def HasPlainYear (f : DateFormat) (t : Timestamp) : Prop :=
  0 ≤ (f.fields t).year ∧ (f.fields t).year ≤ 9999

variable {f : DateFormat} {t u : Timestamp}

theorem isFixed_of_mem_pattern (hf : f ≠ isoDateTimeWithOffset) :
    ∀ item ∈ f.pattern, item.isFixed = true := by
  cases f with
  | isoDateTimeWithOffset => exact absurd rfl hf
  | _ => decide

theorem toNat_lt_of_mem_render (hf : f ≠ isoDateTimeWithOffset) (ht : f.HasPlainYear t) {c : Char}
    (hc : c ∈ (f.render t).toList) : c.toNat < 128 := by
  rw [render_eq, DatePattern.text, String.toList_ofList, List.mem_flatMap] at hc
  obtain ⟨item, hitem, hc⟩ := hc
  exact DateItem.toNat_lt_of_isFixed ht (isFixed_of_mem_pattern hf item hitem) hc

theorem compare_render (hf : f ≠ isoDateTimeWithOffset) (ht : f.HasPlainYear t)
    (hu : f.HasPlainYear u) : compare (f.render t) (f.render u) = f.order t u := by
  rw [compare_eq_compareLex, render_eq, render_eq, DatePattern.text, DatePattern.text,
    String.toList_ofList, String.toList_ofList]
  refine DatePattern.compareLex_text fun item hitem => ?_
  exact DateItem.ordered_of_isFixed (f.fits_fields t) (f.fits_fields u) ht hu
    (isFixed_of_mem_pattern hf item hitem)

/-- In universal time the order of what is shown is the order of the instants, as far as it is
shown: a leap second at the end of a minute is numbered behind the other seconds of it. -/
theorem isLE_order_of_isUtc (hf : f.isUtc = true) (ht : t.utc.LeapsAtEnd)
    (hu : u.utc.LeapsAtEnd) (h : (t.utc.order u.utc).isLE = true) : (f.order t u).isLE = true := by
  have hnano := t.utc.nano_lt
  have hnano' := u.utc.nano_lt
  unfold Moment.LeapsAtEnd at ht hu
  simp only [Moment.order, Moment.numbers, isLE_compareLex_cons, List.compareLex_nil_nil] at h
  cases f with
  | isoDateTimeUtc | isoDateTimeWithMillisecondsUtc =>
    simp only [order, numbers, fields, isUtc, if_true, pattern, dayAndTime, day, time,
      Moment.fields, DateItem.numbers, List.flatMap_cons, List.flatMap_nil, List.cons_append,
      List.nil_append, List.append_nil, isLE_compareLex_cons, List.compareLex_nil_nil,
      Moment.hour, Moment.minute, Moment.secondOfMinute, Moment.nanoOfSecond]
    simp only [Ordering.isLE, and_true] at h ⊢
    omega
  | _ => cases hf

end DateFormat

namespace Value

def instant? : Value → Option Timestamp
  | instant t => some t
  | _ => none

/-- The instants that a column has for comparison: the value itself, or those among the elements
of a list. -/
def instants (many : Bool) : Value → List Timestamp
  | list items => if many then items.filterMap instant? else []
  | v => if many then [] else v.instant?.toList

end Value

theorem project?_dateText (f : DateFormat) (v : Value) :
    (Projection.dateText f).project? v = v.instant?.map fun t => .text (f.render t) := by
  cases v <;> rfl

theorem columnMatches_dateText (v : Value) (many : Bool) (f : DateFormat) (test : Scalar → Bool) :
    columnMatches v many (.dateText f) false test =
      (v.instants many).any fun t => test (.text (f.render t)) := by
  have hscalar : ∀ v : Value, columnMatches v false (.dateText f) false test =
      v.instant?.toList.any fun t => test (.text (f.render t)) := by
    intro v
    unfold columnMatches
    rw [if_neg (by decide), project?_dateText]
    cases v.instant? <;> simp
  cases many with
  | false => cases v <;> exact hscalar _
  | true =>
    cases v with
    | list items =>
      have hproject : (Projection.dateText f).project? =
          fun v => v.instant?.map fun t => .text (f.render t) := funext (project?_dateText f)
      simp only [columnMatches, Value.instants, if_true, Bool.bne_false, hproject,
        ← List.map_filterMap, List.any_map]
      rfl
    | _ => rfl

theorem Scalar.satisfies_text {comparison : Comparison} (h : comparison.isTextual = false)
    (s t : String) :
    (text s).satisfies comparison (text t) = comparison.admits (compare s t) := by
  simp [satisfies, h, compare?]

theorem any_congr_of_mem {α : Type} {as : List α} {p q : α → Bool} (h : ∀ a ∈ as, p a = q a) :
    as.any p = as.any q := by
  induction as with
  | nil => rfl
  | cons a as ih =>
    rw [List.forall_mem_cons] at h
    rw [List.any_cons, List.any_cons, h.1, ih h.2]

namespace Condition

/-- The condition is bound, and a row satisfies it if one of the instants in the field passes the
test. Instants whose years are not plain are left out of account. -/
def TestsInstants (c : Condition) (schema : Schema) (defaultFormat f : DateFormat)
    (target : Target) (test : Timestamp → Bool) : Prop :=
  ∃ e, c.bind schema defaultFormat = .ok e ∧ ∀ row,
    (∀ t ∈ (Row.value row target.index).instants target.many, f.HasPlainYear t) →
    e.evaluate row = ((Row.value row target.index).instants target.many).any test

variable {c : Condition} {schema : Schema} {defaultFormat f : DateFormat} {target : Target}

theorem testsInstants_comparison (hf : f ≠ .isoDateTimeWithOffset)
    (htarget : Target.find schema c.field = .ok target)
    (hk : target.type.comparator? c.case (c.format.getD defaultFormat) = some (.date f))
    {comparison : Comparison} {u : Timestamp}
    (hc : c.operation.comparison? = some (comparison, false))
    (htext : comparison.isTextual = false) (hvalues : c.values = [.instant u])
    (hu : f.HasPlainYear u) :
    c.TestsInstants schema defaultFormat f target fun t => comparison.admits (f.order t u) := by
  unfold TestsInstants
  rw [bind_of_find htarget, hk, hvalues]
  refine ⟨_, (Comparator.bind_one_ok_iff hc (by simp)).2 ⟨rfl, _, rfl, rfl⟩, fun row hrow => ?_⟩
  simp only [Expression.evaluate, Comparator.projection, Target.column, columnMatches_dateText,
    Scalar.satisfies_text htext]
  exact any_congr_of_mem fun t ht => by rw [DateFormat.compare_render hf (hrow t ht) hu]

theorem testsInstants_between (hf : f ≠ .isoDateTimeWithOffset)
    (htarget : Target.find schema c.field = .ok target)
    (hk : target.type.comparator? c.case (c.format.getD defaultFormat) = some (.date f))
    {low high : Timestamp} (hc : c.operation = .between)
    (hvalues : c.values = [.instant low, .instant high]) (hlow : f.HasPlainYear low)
    (hhigh : f.HasPlainYear high) :
    c.TestsInstants schema defaultFormat f target fun t =>
      f.order t low != .lt && f.order t high != .gt := by
  unfold TestsInstants
  rw [bind_of_find htarget, hk, hvalues, hc]
  refine ⟨_, (Comparator.bind_two_ok_iff rfl (by simp) (by simp)).2 ⟨rfl, _, rfl, _, rfl, rfl⟩,
    fun row hrow => ?_⟩
  simp only [Expression.evaluate, Comparator.projection, Target.column]
  refine (columnMatches_dateText _ _ _ _).trans (any_congr_of_mem fun t ht => ?_)
  simp only [Scalar.isBetween, Scalar.compare?, Option.any_some,
    DateFormat.compare_render hf (hrow t ht) hlow, DateFormat.compare_render hf (hrow t ht) hhigh]

end Condition

namespace DateFormat

/-- **The order of date texts is the order of what they show.** Without the offset in the format,
and with years of four digits, renderings consist of characters of one byte and compare as the
numbers that the pattern names. So the two formats in universal time keep the order of instants,
and a condition with instants for operands compares these numbers. -/
theorem render_orders (f : DateFormat) (hf : f ≠ isoDateTimeWithOffset) :
    (∀ t, f.HasPlainYear t → ∀ c ∈ (f.render t).toList, c.toNat < 128) ∧
    (∀ t u, f.HasPlainYear t → f.HasPlainYear u →
      compare (f.render t) (f.render u) = f.order t u) ∧
    (f.isUtc = true → ∀ t u, f.HasPlainYear t → f.HasPlainYear u → t.utc.LeapsAtEnd →
      u.utc.LeapsAtEnd → (t.utc.order u.utc).isLE = true →
      (compare (f.render t) (f.render u)).isLE = true) ∧
    ∀ (c : Condition) schema defaultFormat target, Target.find schema c.field = .ok target →
      target.type.comparator? c.case (c.format.getD defaultFormat) = some (.date f) →
      (∀ comparison u, c.operation.comparison? = some (comparison, false) →
        comparison.isTextual = false → c.values = [.instant u] → f.HasPlainYear u →
        c.TestsInstants schema defaultFormat f target fun t =>
          comparison.admits (f.order t u)) ∧
      (∀ low high, c.operation = .between → c.values = [.instant low, .instant high] →
        f.HasPlainYear low → f.HasPlainYear high →
        c.TestsInstants schema defaultFormat f target fun t =>
          f.order t low != .lt && f.order t high != .gt) := by
  refine ⟨fun t ht c hc => toNat_lt_of_mem_render hf ht hc,
    fun t u ht hu => compare_render hf ht hu, ?_, ?_⟩
  · intro hutc t u ht hu hleap hleap' hle
    rw [compare_render hf ht hu]
    exact isLE_order_of_isUtc hutc hleap hleap' hle
  · intro c schema defaultFormat target htarget hk
    constructor
    · intro comparison u hc htext hvalues hu
      exact Condition.testsInstants_comparison hf htarget hk hc htext hvalues hu
    · intro low high hc hvalues hlow hhigh
      exact Condition.testsInstants_between hf htarget hk hc hvalues hlow hhigh

/-- A leap second and the new year after it, written down at another offset; and a list of instants
with a bound for each. -/
theorem render_orders_newYear :
    let f := isoDateTimeWithMillisecondsUtc
    let leap : Timestamp := ⟨⟨⟨2016, 12, 31, by decide, by decide, by decide, by decide⟩, 86399,
      1500000000, by decide, by decide⟩, 0, by decide, by decide, by decide, by decide⟩
    let newYear : Timestamp := ⟨⟨⟨2017, 1, 1, by decide, by decide, by decide, by decide⟩, 0, 0,
      by decide, by decide⟩, -7200, by decide, by decide, by decide, by decide⟩
    let schema : Schema := ⟨[⟨"Seen", .list (.optional .dateTime)⟩]⟩
    let after : Condition := .plain "Seen" .greaterThan [.instant leap]
    let around : Condition := .plain "seen" .between [.instant leap, .instant newYear]
    let row : Row := [.list [.instant newYear, .null]]
    (compare (f.render leap) (f.render newYear)).isLE = true ∧
      (∃ e, after.bind schema f = .ok e ∧ e.evaluate row = true) ∧
      ∃ e, around.bind schema f = .ok e ∧ e.evaluate row = true := by
  intro f leap newYear schema after around row
  have hleap : f.HasPlainYear leap := ⟨by decide, by decide⟩
  have hnew : f.HasPlainYear newYear := ⟨by decide, by decide⟩
  have hrow : ∀ t ∈ (Row.value row 0).instants true, f.HasPlainYear t := by
    intro t ht
    obtain rfl := List.mem_singleton.1 ht
    exact hnew
  have hfind : Target.find ⟨[⟨"Seen", .list (.optional .dateTime)⟩]⟩ "Seen" =
      .ok ⟨0, "Seen", .date, .dateTime, true⟩ := rfl
  have hfind' : Target.find ⟨[⟨"Seen", .list (.optional .dateTime)⟩]⟩ "seen" =
      .ok ⟨0, "Seen", .date, .dateTime, true⟩ := rfl
  obtain ⟨-, -, hutc, hconditions⟩ := render_orders f (by decide)
  refine ⟨hutc rfl leap newYear hleap hnew (fun _ => by decide) (fun h => absurd h (by decide)) rfl,
    ?_, ?_⟩
  · obtain ⟨e, he, htest⟩ := (hconditions after schema f _ hfind rfl).1 .greaterThan leap rfl rfl
      rfl hleap
    exact ⟨e, he, (htest row hrow).trans (by decide)⟩
  · obtain ⟨e, he, htest⟩ := (hconditions around schema f _ hfind' rfl).2 leap newYear rfl rfl
      hleap hnew
    exact ⟨e, he, (htest row hrow).trans (by decide)⟩

end DateFormat

end RecordSearch
