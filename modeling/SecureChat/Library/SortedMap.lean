import Mathlib.Order.Lattice
import SecureChat.Library.Machine

/-!
# Maps that are read in the order of their keys
-/

namespace SecureChat.Library

abbrev Sorted {κ γ : Type} [LinearOrder κ] (entries : List (κ × γ)) : Prop :=
  entries.Pairwise fun first second => first.1 < second.1

structure SortedMap (κ γ : Type) [LinearOrder κ] where
  entries : List (κ × γ)
  sorted : Sorted entries

namespace SortedMap
variable {κ γ : Type} [LinearOrder κ]

def empty : SortedMap κ γ := ⟨[], .nil⟩

def insertEntry (k : κ) (value : γ) : List (κ × γ) → List (κ × γ)
  | [] => [(k, value)]
  | (j, other) :: rest =>
      if k < j then (k, value) :: (j, other) :: rest
      else if k = j then (k, value) :: rest
      else (j, other) :: insertEntry k value rest

theorem mem_insertEntry {entries : List (κ × γ)} (sorted : Sorted entries) (k : κ) (value : γ) (i : κ) (v : γ) :
    (i, v) ∈ insertEntry k value entries ↔ if i = k then v = value else (i, v) ∈ entries := by
  induction entries with
  | nil => simp [insertEntry]
  | cons head rest ih =>
      obtain ⟨j, other⟩ := head
      obtain ⟨least, sorted⟩ := List.pairwise_cons.mp sorted
      have later (member : (i, v) ∈ rest) : j < i := least _ member
      have ih := ih sorted
      rw [insertEntry]
      split_ifs with before same here here here <;>
        simp only [List.mem_cons, Prod.mk.injEq] <;> grind

theorem sorted_insertEntry {entries : List (κ × γ)} (sorted : Sorted entries) (k : κ) (value : γ) :
    Sorted (insertEntry k value entries) := by
  induction entries with
  | nil => exact List.pairwise_singleton _ _
  | cons head rest ih =>
      obtain ⟨j, other⟩ := head
      obtain ⟨least, rest_sorted⟩ := List.pairwise_cons.mp sorted
      rw [insertEntry]
      split_ifs with before same
      · refine List.pairwise_cons.mpr ⟨fun e member => ?_, sorted⟩
        rcases List.mem_cons.mp member with rfl | later
        · exact before
        · exact lt_trans before (least e later)
      · exact List.pairwise_cons.mpr ⟨fun e later => same ▸ least e later, rest_sorted⟩
      · refine List.pairwise_cons.mpr ⟨fun e member => ?_, ih rest_sorted⟩
        have found := (mem_insertEntry rest_sorted k value e.1 e.2).mp member
        by_cases here : e.1 = k
        · rw [here]
          exact lt_of_le_of_ne (not_lt.mp before) (Ne.symm same)
        · rw [if_neg here] at found
          exact least _ found

def insert (m : SortedMap κ γ) (k : κ) (value : γ) : SortedMap κ γ :=
  ⟨insertEntry k value m.entries, sorted_insertEntry m.sorted k value⟩

@[simp] theorem mem_empty (i : κ) (v : γ) : ¬ (i, v) ∈ (empty : SortedMap κ γ).entries := List.not_mem_nil

theorem mem_insert (m : SortedMap κ γ) (k : κ) (value : γ) (i : κ) (v : γ) :
    (i, v) ∈ (m.insert k value).entries ↔ if i = k then v = value else (i, v) ∈ m.entries :=
  mem_insertEntry m.sorted k value i v

end SortedMap
end SecureChat.Library
