import Mathlib.Data.List.Forall2

/-!
# Results that may be failures

Most functions of this library yield a result or a failure. What is said here holds of all of
them: a chain of two succeeds exactly when both do, and a function applied to every item of a
list succeeds exactly when it does on each.
-/
namespace Daybook

variable {α β ε : Type}

/-- A chain succeeds exactly when its first part does and its second part does with the first
result. -/
theorem bind_eq_ok_iff {first : Except ε α} {second : α → Except ε β} {result : β} :
    (first >>= second) = .ok result ↔ ∃ value, first = .ok value ∧ second value = .ok result := by
  cases first with
  | error failure => simp [bind, Except.bind]
  | ok value => simp [bind, Except.bind]

/-- A chain fails exactly when its first part does or its second part does with the first result. -/
theorem bind_eq_error_iff {first : Except ε α} {second : α → Except ε β} {failure : ε} :
    (first >>= second) = .error failure ↔
      first = .error failure ∨ ∃ value, first = .ok value ∧ second value = .error failure := by
  cases first with
  | error cause => simp [bind, Except.bind]
  | ok value => simp [bind, Except.bind]

/-- What is no failure is a result. -/
theorem exists_of_isOk {result : Except ε α} (accepted : result.isOk = true) :
    ∃ value, result = .ok value := by
  cases result with
  | error failure => cases accepted
  | ok value => exact ⟨value, rfl⟩

/-- A result of which something can be said is no failure, and it is true of the result. Whether
something can be said is computed where a result cannot be written down. -/
theorem exists_of_any {result : Except ε α} {fits : α → Bool}
    (told : result.toOption.any fits = true) :
    ∃ value, result = .ok value ∧ fits value = true := by
  cases result with
  | error failure => cases told
  | ok value => exact ⟨value, rfl, told⟩

/-- A failure that has been put in other words comes from one failure before. -/
theorem mapError_eq_error_iff {ε' : Type} {result : Except ε α} {form : ε → ε'} {failure : ε'} :
    result.mapError form = .error failure ↔
      ∃ cause, result = .error cause ∧ form cause = failure := by
  cases result <;> simp [Except.mapError]

/-- Giving a failure another form changes no success. -/
@[simp] theorem mapError_eq_ok_iff {ε' : Type} {result : Except ε α} {form : ε → ε'} {value : α} :
    result.mapError form = .ok value ↔ result = .ok value := by
  cases result <;> simp [Except.mapError]

/-- Changing a result changes no failure into a success. -/
theorem map_eq_ok_iff {result : Except ε α} {f : α → β} {value : β} :
    result.map f = .ok value ↔ ∃ inner, result = .ok inner ∧ f inner = value := by
  cases result <;> simp [Except.map]

/-- A check of every item of a list succeeds exactly when it does on each. -/
theorem forM_eq_ok_iff {f : α → Except ε Unit} {items : List α} :
    items.forM f = .ok () ↔ ∀ item ∈ items, f item = .ok () := by
  rw [List.forM_eq_forM]
  induction items with
  | nil => simp [pure, Except.pure]
  | cons item rest ih =>
    rw [List.forM_cons, bind_eq_ok_iff, List.forall_mem_cons, ← ih]
    constructor
    · rintro ⟨_, first, others⟩
      exact ⟨first, others⟩
    · rintro ⟨first, others⟩
      exact ⟨(), first, others⟩

/-- A check of every item of a list fails because of one of them. -/
theorem exists_of_forM_eq_error {f : α → Except ε Unit} {items : List α} {failure : ε}
    (refused : items.forM f = .error failure) : ∃ item ∈ items, f item = .error failure := by
  rw [List.forM_eq_forM] at refused
  induction items with
  | nil => cases refused
  | cons item rest ih =>
    rw [List.forM_cons] at refused
    rcases bind_eq_error_iff.mp refused with here | ⟨_, _, later⟩
    · exact ⟨item, List.mem_cons_self, here⟩
    · obtain ⟨other, member, same⟩ := ih later
      exact ⟨other, List.mem_cons_of_mem item member, same⟩

/-- A list is filtered when every item of it is judged, and the accepted ones are kept. The
induction is on the auxiliary loop of `filterM`, which holds what has been accepted so far in
reverse, and not on `filterM` itself. -/
theorem filterM_eq_ok_iff {f : α → Except ε Bool} {items kept : List α} :
    items.filterM f = .ok kept ↔ (∀ item ∈ items, ∃ verdict, f item = .ok verdict) ∧
      kept = items.filter fun item => (f item).toOption == some true := by
  have filtered (held result : List α) : List.filterAuxM f items held = .ok result ↔
      (∀ item ∈ items, ∃ verdict, f item = .ok verdict) ∧
        result = (items.filter fun item => (f item).toOption == some true).reverse ++ held := by
    induction items generalizing held result with
    | nil => simp [List.filterAuxM, pure, Except.pure, eq_comm]
    | cons item rest ih =>
      rw [List.filterAuxM, bind_eq_ok_iff, List.forall_mem_cons]
      constructor
      · rintro ⟨verdict, judged, others⟩
        obtain ⟨each, rfl⟩ := (ih _ _).mp others
        refine ⟨⟨⟨verdict, judged⟩, each⟩, ?_⟩
        cases verdict <;> simp [judged, Except.toOption]
      · rintro ⟨⟨⟨verdict, judged⟩, each⟩, rfl⟩
        refine ⟨verdict, judged, (ih _ _).mpr ⟨each, ?_⟩⟩
        cases verdict <;> simp [judged, Except.toOption]
  rw [List.filterM, bind_eq_ok_iff]
  constructor
  · rintro ⟨held, collected, same⟩
    obtain ⟨each, rfl⟩ := (filtered [] held).mp collected
    cases same
    exact ⟨each, by simp⟩
  · rintro ⟨each, rfl⟩
    exact ⟨_, (filtered [] _).mpr ⟨each, rfl⟩, by simp; rfl⟩

/-- All items have results if each of them has one. -/
theorem exists_mapM_eq_ok {f : α → Except ε β} {items : List α}
    (each : ∀ item ∈ items, ∃ result, f item = .ok result) :
    ∃ results, items.mapM f = .ok results := by
  induction items with
  | nil => exact ⟨[], List.mapM_nil⟩
  | cons item items ih =>
    obtain ⟨⟨first, here⟩, later⟩ := List.forall_mem_cons.mp each
    obtain ⟨others, behind⟩ := ih later
    refine ⟨first :: others, ?_⟩
    rw [List.mapM_cons]
    exact bind_eq_ok_iff.mpr ⟨first, here, bind_eq_ok_iff.mpr ⟨others, behind, rfl⟩⟩

/-- A list is refused because of one of its items. It is the first one that is refused, but where in
the list it stands is of no use to anyone and is left out. -/
theorem exists_of_mapM_eq_error {f : α → Except ε β} {items : List α} {failure : ε}
    (refused : items.mapM f = .error failure) : ∃ item ∈ items, f item = .error failure := by
  induction items with
  | nil =>
    rw [List.mapM_nil] at refused
    cases refused
  | cons item items ih =>
    rw [List.mapM_cons] at refused
    cases first : f item with
    | error cause =>
      rw [first] at refused
      cases refused
      exact ⟨item, List.mem_cons_self, first⟩
    | ok result =>
      rw [first] at refused
      cases others : items.mapM f with
      | error cause =>
        simp only [bind, Except.bind, others] at refused
        cases refused
        obtain ⟨other, member, same⟩ := ih others
        exact ⟨other, List.mem_cons_of_mem _ member, same⟩
      | ok results =>
        simp only [bind, Except.bind, others] at refused
        cases refused

/-- A list is mapped when every item of it is. -/
theorem forall₂_of_mapM_eq_ok {f : α → Except ε β} {items : List α} {results : List β}
    (mapped : items.mapM f = .ok results) :
    List.Forall₂ (fun item result => f item = .ok result) items results := by
  induction items generalizing results with
  | nil =>
    rw [List.mapM_nil] at mapped
    cases mapped
    exact List.Forall₂.nil
  | cons item rest ih =>
    rw [List.mapM_cons] at mapped
    obtain ⟨result, first, others⟩ := bind_eq_ok_iff.mp mapped
    obtain ⟨more, tail, joined⟩ := bind_eq_ok_iff.mp others
    cases joined
    exact List.Forall₂.cons first (ih tail)

/-- A list is mapped exactly when every item of it is accepted, if an accepted item has only one
result. -/
theorem mapM_eq_ok_iff {f : α → Except ε β} {result : α → β} {Accepted : α → Prop}
    (each : ∀ item value, f item = .ok value ↔ Accepted item ∧ value = result item)
    {items : List α} {values : List β} : items.mapM f = .ok values ↔
      (∀ item ∈ items, Accepted item) ∧ values = items.map result := by
  induction items generalizing values with
  | nil =>
    rw [List.mapM_nil]
    constructor
    · intro mapped
      cases mapped
      exact ⟨fun item member => (List.not_mem_nil member).elim, rfl⟩
    · rintro ⟨_, rfl⟩
      rfl
  | cons first items ih =>
    rw [List.mapM_cons, bind_eq_ok_iff]
    constructor
    · rintro ⟨value, found, others⟩
      obtain ⟨more, mapped, joined⟩ := bind_eq_ok_iff.mp others
      cases joined
      obtain ⟨accepted, rfl⟩ := (each first value).mp found
      obtain ⟨all, rfl⟩ := ih.mp mapped
      exact ⟨List.forall_mem_cons.mpr ⟨accepted, all⟩, rfl⟩
    · rintro ⟨all, rfl⟩
      obtain ⟨accepted, others⟩ := List.forall_mem_cons.mp all
      refine ⟨result first, (each first _).mpr ⟨accepted, rfl⟩, bind_eq_ok_iff.mpr ?_⟩
      exact ⟨items.map result, ih.mpr ⟨others, rfl⟩, rfl⟩

/-- What holds of every item of a list can be checked item by item. -/
theorem forall_mem_of_all {p : α → Prop} [DecidablePred p] {items : List α}
    (checked : items.all (fun item => decide (p item)) = true) : ∀ item ∈ items, p item := by
  simpa using checked

/-- A list without repetitions keeps all its items. -/
theorem eraseDups_of_nodup {α : Type} [BEq α] [LawfulBEq α] {items : List α} (once : items.Nodup) :
    items.eraseDups = items := by
  induction items with
  | nil => rfl
  | cons item items ih =>
    obtain ⟨other, once⟩ := List.nodup_cons.mp once
    have kept : items.filter (fun held => !held == item) = items :=
      List.filter_eq_self.mpr fun held member => by
        have apart : held ≠ item := fun same => other (same ▸ member)
        simpa using apart
    rw [List.eraseDups_cons, kept, ih once]

end Daybook
