/-!
Results that may be errors: what the success of a composed computation says of its parts, for a
sequence of two steps, a step with a pure continuation, and one step for each item of a list; and
which error is the one of the whole, the first from the left.
-/

namespace RecordSearch

variable {ε α β γ : Type}

theorem bind_ok_iff {x : Except ε α} {f : α → Except ε β} {b : β} :
    x >>= f = .ok b ↔ ∃ a, x = .ok a ∧ f a = .ok b := by
  cases x with
  | error e => simp [bind, Except.bind]
  | ok a => simp [bind, Except.bind]

theorem map_ok_iff {x : Except ε α} {f : α → β} {b : β} :
    x.map f = .ok b ↔ ∃ a, x = .ok a ∧ f a = b := by
  cases x with
  | error e => simp [Except.map]
  | ok a => simp [Except.map]

theorem bind_error_iff {x : Except ε α} {f : α → Except ε β} {e : ε} :
    x >>= f = .error e ↔ x = .error e ∨ ∃ a, x = .ok a ∧ f a = .error e := by
  cases x with
  | error d => simp [bind, Except.bind]
  | ok a => simp [bind, Except.bind]

theorem map_error_iff {x : Except ε α} {f : α → β} {e : ε} :
    x.map f = .error e ↔ x = .error e := by
  cases x with
  | error d => simp [Except.map]
  | ok a => simp [Except.map]

/-- Two steps give one result. -/
theorem unique_of_ok {δ : Type} {x : Except ε α} {f : α → Except δ β} {b c : β}
    (hb : ∃ a, x = .ok a ∧ f a = .ok b) (hc : ∃ a, x = .ok a ∧ f a = .ok c) : b = c := by
  obtain ⟨a, ha, hb⟩ := hb
  obtain ⟨a', ha', hc⟩ := hc
  obtain rfl := Except.ok.inj (ha.symm.trans ha')
  exact Except.ok.inj (hb.symm.trans hc)

/-- Only the absence of every error makes a result. -/
theorem exists_ok_iff {x : Except ε α} : (∃ a, x = .ok a) ↔ ∀ e, x ≠ .error e := by
  cases x with
  | error d => simp
  | ok a => simp

theorem ok_of_toOption {x : Except ε α} {a : α} (h : x.toOption = some a) : x = .ok a := by
  cases x with
  | error e => cases h
  | ok b => exact congrArg _ (Option.some.inj h)

/-- A result is there if evaluation finds one. -/
theorem exists_ok_of_toOption {x : Except ε α} {f : α → β} {b : β}
    (h : x.toOption.map f = some b) : ∃ a, x = .ok a ∧ f a = b := by
  obtain ⟨a, ha, hb⟩ := Option.map_eq_some_iff.1 h
  exact ⟨a, ok_of_toOption ha, hb⟩

/-- Sequences whose steps agree but for their errors agree but for their errors. -/
theorem toOption_bind_congr {x y : Except ε α} {f g : α → Except ε β}
    (h : x.toOption = y.toOption) (hfg : ∀ a, (f a).toOption = (g a).toOption) :
    (x >>= f).toOption = (y >>= g).toOption := by
  cases x with
  | error e =>
    cases y with
    | error d => rfl
    | ok b => cases h
  | ok a =>
    cases y with
    | error d => cases h
    | ok b =>
      obtain rfl := Option.some.inj h
      exact hfg a

theorem toOption_map_congr {x y : Except ε α} (f : α → β)
    (h : x.toOption = y.toOption) : (x.map f).toOption = (y.map f).toOption := by
  cases x <;> cases y <;> cases h <;> rfl

theorem mapError_ok {f : ε → β} {a : α} : (.ok a : Except ε α).mapError f = .ok a := rfl

theorem mapError_ok_iff {x : Except ε α} {f : ε → β} {a : α} :
    x.mapError f = .ok a ↔ x = .ok a := by
  cases x with
  | error e => exact iff_of_false nofun nofun
  | ok b => rw [mapError_ok, Except.ok.injEq, Except.ok.injEq]

theorem mapError_error_iff {x : Except ε α} {f : ε → β} {e : β} :
    x.mapError f = .error e ↔ ∃ d, x = .error d ∧ f d = e := by
  cases x with
  | error d =>
    change Except.error (f d) = .error e ↔ _
    simp only [Except.error.injEq, exists_eq_left']
  | ok b => exact iff_of_false nofun nofun

theorem mapM_map_ok {f : α → β} {g : β → Except ε γ} {h : α → γ} {as : List α}
    (hg : ∀ a ∈ as, g (f a) = .ok (h a)) : (as.map f).mapM g = .ok (as.map h) := by
  induction as with
  | nil => rfl
  | cons a rest ih =>
    rw [List.map_cons, List.mapM_cons, hg a List.mem_cons_self,
      ih fun b hb => hg b (List.mem_cons_of_mem _ hb)]
    rfl

theorem mapM_cons_ok_iff {f : α → Except ε β} {a : α} {as : List α} {bs : List β} :
    (a :: as).mapM f = .ok bs ↔
      ∃ b, f a = .ok b ∧ ∃ others, as.mapM f = .ok others ∧ b :: others = bs := by
  rw [List.mapM_cons]
  simp only [bind_ok_iff, pure, Except.pure, Except.ok.injEq]

theorem all_of_mapM {f : α → Except ε β} {p : β → Bool} {q : α → Bool} {as : List α}
    {bs : List β} (h : as.mapM f = .ok bs) (hq : ∀ a ∈ as, ∀ b, f a = .ok b → p b = q a) :
    bs.all p = as.all q := by
  induction as generalizing bs with
  | nil =>
    obtain rfl : [] = bs := Except.ok.inj h
    rfl
  | cons a rest ih =>
    obtain ⟨b, hb, others, hothers, rfl⟩ := mapM_cons_ok_iff.1 h
    rw [List.all_cons, List.all_cons, hq a List.mem_cons_self b hb,
      ih hothers fun c hc => hq c (List.mem_cons_of_mem _ hc)]

theorem forall_of_mapM {f : α → Except ε β} {P : β → Prop} {as : List α} {bs : List β}
    (h : as.mapM f = .ok bs) (hP : ∀ a ∈ as, ∀ b, f a = .ok b → P b) : ∀ b ∈ bs, P b := by
  induction as generalizing bs with
  | nil =>
    obtain rfl : [] = bs := Except.ok.inj h
    exact fun b hb => absurd hb List.not_mem_nil
  | cons a rest ih =>
    obtain ⟨b, hb, others, hothers, rfl⟩ := mapM_cons_ok_iff.1 h
    exact List.forall_mem_cons.2 ⟨hP a List.mem_cons_self b hb,
      ih hothers fun c hc => hP c (List.mem_cons_of_mem _ hc)⟩

theorem length_of_mapM {f : α → Except ε β} {as : List α} {bs : List β}
    (h : as.mapM f = .ok bs) : bs.length = as.length := by
  induction as generalizing bs with
  | nil =>
    obtain rfl : [] = bs := Except.ok.inj h
    rfl
  | cons a rest ih =>
    obtain ⟨b, -, others, hothers, rfl⟩ := mapM_cons_ok_iff.1 h
    rw [List.length_cons, List.length_cons, ih hothers]

theorem getElem?_of_mapM {f : α → Except ε β} {as : List α} {bs : List β}
    (h : as.mapM f = .ok bs) {i : Nat} {a : α} (ha : as[i]? = some a) :
    ∃ b, bs[i]? = some b ∧ f a = .ok b := by
  induction as generalizing bs i with
  | nil => simp at ha
  | cons head rest ih =>
    obtain ⟨b, hb, others, hothers, rfl⟩ := mapM_cons_ok_iff.1 h
    cases i with
    | zero =>
      obtain rfl := Option.some.inj ha
      exact ⟨b, rfl, hb⟩
    | succ i => exact ih hothers ha

/-- Of the items with a fault, the first has this one. -/
def IsFirstFault (fault : α → ε → Prop) (as : List α) (e : ε) : Prop :=
  ∃ before a after, as = before ++ a :: after ∧ (∀ b ∈ before, ∀ d, ¬fault b d) ∧ fault a e

section Faults

variable {fault other : α → ε → Prop} {a : α} {as bs : List α} {e : ε}

theorem IsFirstFault.exists_mem (h : IsFirstFault fault as e) : ∃ a ∈ as, fault a e := by
  obtain ⟨before, a, after, rfl, -, ha⟩ := h
  exact ⟨a, List.mem_append_right _ List.mem_cons_self, ha⟩

theorem not_isFirstFault_nil : ¬IsFirstFault fault [] e := by
  rintro ⟨before, a, after, h, -⟩
  simp at h

theorem isFirstFault_cons_iff :
    IsFirstFault fault (a :: as) e ↔ fault a e ∨ (∀ d, ¬fault a d) ∧ IsFirstFault fault as e := by
  constructor
  · rintro ⟨before, b, after, h, hbefore, hb⟩
    cases before with
    | nil =>
      obtain ⟨rfl, -⟩ := List.cons.inj h
      exact .inl hb
    | cons c before =>
      obtain ⟨rfl, rfl⟩ := List.cons.inj h
      have hc := hbefore a List.mem_cons_self
      exact .inr ⟨hc, before, b, after, rfl, fun d hd => hbefore d (List.mem_cons_of_mem _ hd), hb⟩
  · rintro (ha | ⟨ha, before, b, after, rfl, hbefore, hb⟩)
    · exact ⟨[], a, as, rfl, by simp, ha⟩
    · refine ⟨a :: before, b, after, rfl, ?_, hb⟩
      rintro d hd
      cases hd with
      | head => exact ha
      | tail _ hd => exact hbefore d hd

theorem isFirstFault_append_iff : IsFirstFault fault (as ++ bs) e ↔
    IsFirstFault fault as e ∨ (∀ a ∈ as, ∀ d, ¬fault a d) ∧ IsFirstFault fault bs e := by
  induction as with
  | nil => simp [not_isFirstFault_nil]
  | cons a as ih =>
    rw [List.cons_append, isFirstFault_cons_iff, isFirstFault_cons_iff, ih, List.forall_mem_cons]
    simp only [and_or_left, or_assoc, and_assoc]

theorem exists_isFirstFault_iff :
    (∃ e, IsFirstFault fault as e) ↔ ∃ a ∈ as, ∃ e, fault a e := by
  induction as with
  | nil => simp [not_isFirstFault_nil]
  | cons a as ih =>
    simp only [isFirstFault_cons_iff, exists_or, exists_and_left, ih, List.mem_cons,
      exists_eq_or_imp]
    by_cases ha : ∃ e, fault a e
    · simp only [ha, true_or]
    · simp only [not_exists.1 ha, not_false_eq_true, implies_true, true_and]

theorem isFirstFault_congr (h : ∀ a ∈ as, ∀ e, fault a e ↔ other a e) :
    IsFirstFault fault as e ↔ IsFirstFault other as e := by
  induction as with
  | nil => simp [not_isFirstFault_nil]
  | cons a as ih =>
    rw [List.forall_mem_cons] at h
    simp only [isFirstFault_cons_iff, h.1, ih h.2]

theorem mapM_error_iff {f : α → Except ε β} :
    as.mapM f = .error e ↔ IsFirstFault (fun a e => f a = .error e) as e := by
  induction as with
  | nil => simp [not_isFirstFault_nil, pure, Except.pure]
  | cons a as ih =>
    rw [List.mapM_cons, bind_error_iff, isFirstFault_cons_iff, ← ih]
    have hrest : ∀ b, (as.mapM f >>= fun bs => pure (b :: bs)) = .error e ↔
        as.mapM f = .error e := by
      intro b
      simp [bind_error_iff, pure, Except.pure]
    simp only [hrest, exists_and_right, exists_ok_iff, ne_eq]

theorem isFirstFault_singleton_iff : IsFirstFault fault [a] e ↔ fault a e := by
  rw [isFirstFault_cons_iff]
  exact or_iff_left fun h => not_isFirstFault_nil h.2

/-- Steps that fail by the faults of their stages fail together by the first of these. -/
theorem bind_error_iff_isFirstFault {x : Except ε β} {g : β → Except ε γ}
    (hx : ∀ d, x = .error d ↔ fault a d)
    (hg : ∀ b, x = .ok b → (g b = .error e ↔ IsFirstFault fault as e)) :
    x >>= g = .error e ↔ IsFirstFault fault (a :: as) e := by
  rw [bind_error_iff, isFirstFault_cons_iff, hx]
  refine or_congr_right ?_
  constructor
  · rintro ⟨b, hb, h⟩
    refine ⟨fun d hd => ?_, (hg b hb).1 h⟩
    cases hb.symm.trans ((hx d).2 hd)
  · rintro ⟨hnone, h⟩
    obtain ⟨b, hb⟩ := exists_ok_iff.2 fun d hd => hnone d ((hx d).1 hd)
    exact ⟨b, hb, (hg b hb).2 h⟩

/-- Items have results together if each has one. -/
theorem exists_mapM_ok_iff {f : α → Except ε β} :
    (∃ bs, as.mapM f = .ok bs) ↔ ∀ a ∈ as, ∃ b, f a = .ok b := by
  simp only [exists_ok_iff, ne_eq, mapM_error_iff]
  rw [← not_exists, exists_isFirstFault_iff]
  simp only [not_exists, not_and]

end Faults

end RecordSearch
