import Mathlib.Data.List.Basic

/-!
# Collecting from a list

A loop that takes an item, or none, from every element of a list and ends with the first error.
-/

namespace SecureChat.Library

variable {α β ε : Type}

section
variable (f : α → Except ε (Option β))

theorem filterMapM_cons (a : α) (rest : List α) : (a :: rest).filterMapM f =
    (f a).bind fun item => (rest.filterMapM f).map fun items => item.toList ++ items := by
  rw [List.filterMapM_cons]
  cases f a with
  | error e => rfl
  | ok item => cases item <;> cases rest.filterMapM f <;> rfl

theorem filterMapM_append (first rest : List α) : (first ++ rest).filterMapM f =
    (first.filterMapM f).bind fun items => (rest.filterMapM f).map fun more => items ++ more := by
  induction first with
  | nil => cases later : rest.filterMapM f <;> simp [later, pure, Except.pure, Except.bind, Except.map]
  | cons a first ih =>
      rw [List.cons_append, filterMapM_cons, filterMapM_cons, ih]
      cases f a with
      | error e => rfl
      | ok item =>
          cases first.filterMapM f with
          | error e => rfl
          | ok items => cases rest.filterMapM f <;> simp [Except.bind, Except.map]

end

variable {f : α → Except ε (Option β)}

theorem filterMapM_cons_eq_ok {a : α} {rest : List α} {items : List β} :
    (a :: rest).filterMapM f = .ok items ↔
      ∃ item more, f a = .ok item ∧ rest.filterMapM f = .ok more ∧ item.toList ++ more = items := by
  rw [filterMapM_cons]
  cases f a with
  | error e => simp [Except.bind]
  | ok item => cases rest.filterMapM f <;> simp [Except.bind, Except.map]

theorem filterMapM_ok_iff (xs : List α) :
    (∃ items, xs.filterMapM f = .ok items) ↔ ∀ a ∈ xs, ∃ item, f a = .ok item := by
  induction xs with
  | nil => simp [pure, Except.pure]
  | cons a rest ih =>
      rw [List.forall_mem_cons, ← ih]
      constructor
      · intro ⟨items, read⟩
        obtain ⟨item, more, taken, later, _⟩ := filterMapM_cons_eq_ok.mp read
        exact ⟨⟨item, taken⟩, more, later⟩
      · intro ⟨⟨item, taken⟩, more, later⟩
        exact ⟨_, filterMapM_cons_eq_ok.mpr ⟨item, more, taken, later, rfl⟩⟩

theorem length_of_filterMapM {p : α → Bool} (agrees : ∀ a item, f a = .ok item → item.isSome = p a)
    {xs : List α} {items : List β} (read : xs.filterMapM f = .ok items) : items.length = xs.countP p := by
  induction xs generalizing items with
  | nil =>
      obtain rfl : [] = items := by simpa [pure, Except.pure] using read
      rfl
  | cons a rest ih =>
      obtain ⟨item, more, taken, later, rfl⟩ := filterMapM_cons_eq_ok.mp read
      have counted : item.toList.length = if p a then 1 else 0 := by
        rw [← agrees a item taken]
        cases item <;> rfl
      rw [List.length_append, ih later, List.countP_cons, counted, Nat.add_comm]

/-- The loop gives what is expected of all elements only if it does so of each, provided that it
takes an item wherever one is expected and nowhere else. -/
theorem filterMapM_eq_ok_iff {g : α → Option β}
    (agrees : ∀ a item, f a = .ok item → item.isSome = (g a).isSome) (xs : List α) :
    xs.filterMapM f = .ok (xs.filterMap g) ↔ ∀ a ∈ xs, f a = .ok (g a) := by
  induction xs with
  | nil => simp [pure, Except.pure]
  | cons a rest ih =>
      have expected : (a :: rest).filterMap g = (g a).toList ++ rest.filterMap g := by
        rw [List.filterMap_cons]
        cases g a <;> rfl
      rw [filterMapM_cons_eq_ok, expected, List.forall_mem_cons, ← ih]
      constructor
      · intro ⟨item, more, taken, later, same⟩
        have size : item.toList.length = (g a).toList.length := by
          have agree := agrees a item taken
          cases item <;> cases expectation : g a <;> simp [expectation] at agree ⊢
        obtain ⟨here, there⟩ := List.append_inj same size
        have same : item = g a := by
          cases item <;> cases expectation : g a <;> simp_all
        exact ⟨same ▸ taken, there ▸ later⟩
      · intro ⟨taken, later⟩
        exact ⟨g a, _, taken, later, rfl⟩

end SecureChat.Library
