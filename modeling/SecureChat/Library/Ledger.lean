import Mathlib.Logic.Function.Basic
import SecureChat.Library.Machine

/-!
# Ledgers

A ledger is a list of changes, each of which puts a value under a key or drops what is under it.
Replaying it gives the directory that the changes leave behind. In a ledger of resources a key is
only put while it is free and only dropped while it is taken; if such a ledger ends with every key
free, puts and drops come in pairs.
-/

namespace SecureChat.Library

inductive Change (κ γ : Type) where
  | put (k : κ) (value : γ)
  | drop (k : κ)

def Change.key {κ γ : Type} : Change κ γ → κ
  | .put k _ => k
  | .drop k => k

namespace Ledger
variable {κ γ : Type} [DecidableEq κ]

def apply (directory : κ → Option γ) : Change κ γ → κ → Option γ
  | .put k value => Function.update directory k (some value)
  | .drop k => Function.update directory k none

def replayFrom (directory : κ → Option γ) (changes : List (Change κ γ)) : κ → Option γ :=
  changes.foldl apply directory

def replay (changes : List (Change κ γ)) : κ → Option γ :=
  replayFrom (fun _ => none) changes

@[simp] theorem replay_nil (k : κ) : replay ([] : List (Change κ γ)) k = none := rfl

@[simp] theorem replay_put (changes : List (Change κ γ)) (k : κ) (value : γ) (j : κ) :
    replay (changes ++ [.put k value]) j = if j = k then some value else replay changes j := by
  simp [replay, replayFrom, apply, Function.update_apply]

@[simp] theorem replay_drop (changes : List (Change κ γ)) (k j : κ) :
    replay (changes ++ [.drop k]) j = if j = k then none else replay changes j := by
  simp [replay, replayFrom, apply, Function.update_apply]

theorem replay_isSome {first rest : List (Change κ γ)} {k : κ} {value : γ} (kept : Change.drop k ∉ rest) :
    (replay (first ++ .put k value :: rest) k).isSome := by
  induction rest using List.reverseRecOn with
  | nil => simp
  | append_singleton rest change ih =>
      rw [List.mem_append, not_or, List.mem_singleton] at kept
      rw [← List.cons_append, ← List.append_assoc]
      cases change with
      | put j later =>
          rw [replay_put]
          split
          · rfl
          · exact ih kept.1
      | drop j =>
          have other : k ≠ j := by
            rintro rfl
            exact kept.2 rfl
          rw [replay_drop, if_neg other]
          exact ih kept.1

theorem replay_untouched (first : List (Change κ γ)) {rest : List (Change κ γ)} {k : κ}
    (untouched : ∀ c ∈ rest, c.key ≠ k) : replay (first ++ rest) k = replay first k := by
  induction rest using List.reverseRecOn with
  | nil => simp
  | append_singleton rest change ih =>
      have earlier := ih fun c member => untouched c (by simp [member])
      have other : k ≠ change.key := (untouched change (by simp)).symm
      rw [← List.append_assoc]
      cases change with
      | put j value => exact (replay_put ..).trans ((if_neg other).trans earlier)
      | drop j => exact (replay_drop ..).trans ((if_neg other).trans earlier)

theorem replay_eq_some {changes : List (Change κ γ)} {k : κ} {value : γ}
    (found : replay changes k = some value) :
    ∃ first rest, changes = first ++ .put k value :: rest ∧ ∀ c ∈ rest, c.key ≠ k := by
  induction changes using List.reverseRecOn with
  | nil => simp at found
  | append_singleton changes change ih =>
      have extend (other : k ≠ change.key) (earlier : replay changes k = some value) :
          ∃ first rest, changes ++ [change] = first ++ .put k value :: rest ∧ ∀ c ∈ rest, c.key ≠ k := by
        obtain ⟨first, rest, rfl, untouched⟩ := ih earlier
        exact ⟨first, rest ++ [change], by simp, by simpa [or_imp, forall_and, other.symm] using untouched⟩
      cases change with
      | put j later =>
          rw [replay_put] at found
          by_cases same : k = j
          · subst same
            simp only [↓reduceIte, Option.some.injEq] at found
            exact ⟨changes, [], by simp [found], by simp⟩
          · rw [if_neg same] at found
            exact extend same found
      | drop j =>
          rw [replay_drop] at found
          by_cases same : k = j
          · simp [same] at found
          · rw [if_neg same] at found
            exact extend same found

/-! ## Ledgers of resources -/

/-- A change that takes a resource takes one that is free, and one that gives it back gives back
one that is taken. -/
def Admits (changes : List (Change κ γ)) : Change κ γ → Prop
  | .put k _ => replay changes k = none
  | .drop k => (replay changes k).isSome

def Strict (changes : List (Change κ γ)) : Prop := Throughout Admits changes

structure Paired (changes : List (Change κ γ)) : Prop where
  dropped : ∀ first k value rest, changes = first ++ .put k value :: rest →
    ∃ mid last, rest = mid ++ .drop k :: last ∧ ∀ c ∈ mid, c.key ≠ k
  taken : ∀ first k rest, changes = first ++ .drop k :: rest →
    ∃ start value mid, first = start ++ .put k value :: mid ∧ ∀ c ∈ mid, c.key ≠ k

omit [DecidableEq κ] in
private theorem first_touch (changes : List (Change κ γ)) (k : κ) : (∀ c ∈ changes, c.key ≠ k) ∨
    ∃ mid c last, changes = mid ++ c :: last ∧ c.key = k ∧ ∀ x ∈ mid, x.key ≠ k := by
  induction changes with
  | nil => simp
  | cons c rest ih =>
      by_cases same : c.key = k
      · exact .inr ⟨[], c, rest, rfl, same, by simp⟩
      · rcases ih with untouched | ⟨mid, found, last, rfl, touches, before⟩
        · exact .inl (by simpa [same] using untouched)
        · exact .inr ⟨c :: mid, found, last, rfl, touches, by simpa [same] using before⟩

theorem Strict.paired {changes : List (Change κ γ)} (strict : Strict changes)
    (empty : ∀ k, replay changes k = none) : Paired changes where
  dropped first k value rest split := by
    rcases first_touch rest k with untouched | ⟨mid, c, last, rfl, touches, before⟩
    · have held : replay changes k = some value := by
        rw [split, List.append_cons, replay_untouched _ untouched, replay_put, if_pos rfl]
      rw [empty k] at held
      contradiction
    · have admits := strict (first ++ .put k value :: mid) c last (by simp [split])
      have held : replay (first ++ .put k value :: mid) k = some value := by
        rw [List.append_cons, replay_untouched _ before, replay_put, if_pos rfl]
      cases c with
      | put j later =>
          subst touches
          exact absurd (held.symm.trans admits) (by simp)
      | drop j =>
          subst touches
          exact ⟨mid, last, rfl, before⟩
  taken first k rest split := by
    obtain ⟨value, held⟩ := Option.isSome_iff_exists.mp (strict first (.drop k) rest split)
    obtain ⟨start, mid, same, untouched⟩ := replay_eq_some held
    exact ⟨start, value, mid, same, untouched⟩

end Ledger
end SecureChat.Library
