import Mathlib.Data.List.Induction

/-!
# Runs of a machine

A machine takes an action in a state and gives an output and the next state. The history of a run
keeps every action with its output and the states around it, so that a property of a whole run is
a property of a list. `history_rule` is the induction over runs: what holds of the empty history
and survives one more action holds of every run.
-/

namespace SecureChat.Library

theorem concat_eq_append_cons {α : Type} {xs first rest : List α} {a x : α} :
    xs ++ [a] = first ++ x :: rest ↔
      (xs = first ∧ a = x ∧ rest = []) ∨ ∃ middle, rest = middle ++ [a] ∧ xs = first ++ x :: middle := by
  rcases List.eq_nil_or_concat rest with rfl | ⟨middle, b, rfl⟩
  · simp
  · rw [List.concat_eq_append]
    have regrouped : first ++ x :: (middle ++ [b]) = (first ++ x :: middle) ++ [b] := by simp
    constructor
    · intro split
      rw [regrouped] at split
      obtain ⟨same, last⟩ := List.append_inj' split rfl
      exact .inr ⟨middle, by simpa using last.symm, same⟩
    · rintro (⟨_, _, empty⟩ | ⟨middle', same, rfl⟩)
      · simp at empty
      · rw [same]
        simp

theorem forall_mem_concat {α : Type} {xs : List α} {a : α} {p : α → Prop} :
    (∀ x ∈ xs ++ [a], p x) ↔ (∀ x ∈ xs, p x) ∧ p a := by
  rw [List.forall_mem_append, List.forall_mem_singleton]

/-! ## Properties of every entry of a log -/

/-- Every entry is allowed after what was there when it was made. -/
def Throughout {α : Type} (allows : List α → α → Prop) (log : List α) : Prop :=
  ∀ first a rest, log = first ++ a :: rest → allows first a

theorem throughout_nil {α : Type} (allows : List α → α → Prop) : Throughout allows [] := by
  intro first a rest split
  simp at split

theorem throughout_concat {α : Type} {allows : List α → α → Prop} {log : List α} {a : α} :
    Throughout allows (log ++ [a]) ↔ Throughout allows log ∧ allows log a := by
  constructor
  · intro every
    refine ⟨fun first b rest split => every first b (rest ++ [a]) (by simp [split]), ?_⟩
    exact every log a [] rfl
  · intro ⟨earlier, last⟩ first b rest split
    rcases concat_eq_append_cons.mp split with ⟨rfl, rfl, _⟩ | ⟨middle, _, same⟩
    · exact last
    · exact earlier first b middle same

/-! ## The entries of a log with their past -/

def entriesAfter {α : Type} (past : List α) : List α → List (List α × α)
  | [] => []
  | a :: rest => (past, a) :: entriesAfter (past ++ [a]) rest

/-- Every entry of a log with what was there when it was made. -/
def entries {α : Type} (log : List α) : List (List α × α) := entriesAfter [] log

@[simp] theorem entries_nil {α : Type} : entries ([] : List α) = [] := rfl

theorem entries_concat {α : Type} (log : List α) (a : α) : entries (log ++ [a]) = entries log ++ [(log, a)] := by
  have after (rest : List α) : ∀ past,
      entriesAfter past (rest ++ [a]) = entriesAfter past rest ++ [(past ++ rest, a)] := by
    induction rest with
    | nil => simp [entriesAfter]
    | cons b rest ih => simp [entriesAfter, ih]
  exact after log []

/-! ## Runs -/

structure Moment (σ α ρ : Type) where
  before : σ
  action : α
  output : ρ
  after : σ

section
variable {σ α ρ : Type} (step : α → σ → ρ × σ)

def moment (s : σ) (a : α) : Moment σ α ρ :=
  ⟨s, a, (step a s).1, (step a s).2⟩

def final (s : σ) : List α → σ
  | [] => s
  | a :: rest => final (step a s).2 rest

def history (s : σ) : List α → List (Moment σ α ρ)
  | [] => []
  | a :: rest => moment step s a :: history (step a s).2 rest

@[simp] theorem length_history (s : σ) (actions : List α) :
    (history step s actions).length = actions.length := by
  induction actions generalizing s with
  | nil => rfl
  | cons a rest ih => simp [history, ih]

theorem final_append (s : σ) (first rest : List α) :
    final step s (first ++ rest) = final step (final step s first) rest := by
  induction first generalizing s with
  | nil => rfl
  | cons a first ih => exact ih _

theorem history_append (s : σ) (first rest : List α) :
    history step s (first ++ rest) = history step s first ++ history step (final step s first) rest := by
  induction first generalizing s with
  | nil => rfl
  | cons a first ih =>
      simp only [List.cons_append, history, final, ih]

theorem final_concat (s : σ) (actions : List α) (a : α) :
    final step s (actions ++ [a]) = (step a (final step s actions)).2 := by
  rw [final_append]
  rfl

theorem history_concat (s : σ) (actions : List α) (a : α) :
    history step s (actions ++ [a]) = history step s actions ++ [moment step (final step s actions) a] := by
  rw [history_append]
  rfl

theorem history_rule (holds : List (Moment σ α ρ) → σ → Prop) {start : σ} (initially : holds [] start)
    (keeps : ∀ past s a, holds past s → holds (past ++ [moment step s a]) (step a s).2)
    (actions : List α) : holds (history step start actions) (final step start actions) := by
  induction actions using List.reverseRecOn with
  | nil => exact initially
  | append_singleton actions a ih =>
      rw [history_concat, final_concat]
      exact keeps _ _ _ ih

theorem final_rule (holds : σ → Prop) {start : σ} (initially : holds start)
    (keeps : ∀ s a, holds s → holds (step a s).2) (actions : List α) :
    holds (final step start actions) :=
  history_rule step (fun _ => holds) initially (fun _ s a => keeps s a) actions

/-! ## Fair rounds -/

section
variable {step} {work : σ → Nat} {turn : α → Prop}

theorem work_le (either : ∀ a s, turn a → (step a s).2 = s ∨ work (step a s).2 < work s) (turns : List α)
    (all : ∀ a ∈ turns, turn a) (s : σ) : work (final step s turns) ≤ work s := by
  induction turns generalizing s with
  | nil => exact Nat.le_refl _
  | cons a rest ih =>
      obtain ⟨first, later⟩ := List.forall_mem_cons.mp all
      refine Nat.le_trans (ih later _) ?_
      rcases either a s first with same | less
      · exact Nat.le_of_eq (congrArg work same)
      · exact Nat.le_of_lt less

theorem work_lt (either : ∀ a s, turn a → (step a s).2 = s ∨ work (step a s).2 < work s) {turns : List α}
    (all : ∀ a ∈ turns, turn a) {a : α} (member : a ∈ turns) {s : σ} (does : work (step a s).2 < work s) :
    work (final step s turns) < work s := by
  induction turns with
  | nil => contradiction
  | cons b rest ih =>
      obtain ⟨first, later⟩ := List.forall_mem_cons.mp all
      rcases either b s first with same | less
      · rcases List.mem_cons.mp member with rfl | later_member
        · rw [same] at does
          exact absurd does (Nat.lt_irrefl _)
        · rw [final, same]
          exact ih later later_member
      · exact Nat.lt_of_le_of_lt (work_le either rest later _) less

/-- Rounds in which everybody gets a turn do all the work, if a turn either does some of it or does
nothing, and somebody can do some as long as there is any. -/
theorem rounds_rule (either : ∀ a s, turn a → (step a s).2 = s ∨ work (step a s).2 < work s)
    (somebody : ∀ s, 0 < work s → ∃ a, turn a ∧ work (step a s).2 < work s) (rounds : List (List α))
    (fair : ∀ round ∈ rounds, ∀ a, a ∈ round ↔ turn a) {s : σ} (enough : work s ≤ rounds.length) :
    work (final step s rounds.flatten) = 0 := by
  induction rounds generalizing s with
  | nil => exact Nat.le_zero.mp enough
  | cons round rest ih =>
      obtain ⟨first, later⟩ := List.forall_mem_cons.mp fair
      rw [List.flatten_cons, final_append]
      refine ih later ?_
      have all : ∀ a ∈ round, turn a := fun a member => (first a).mp member
      rcases Nat.eq_zero_or_pos (work s) with none | some
      · exact Nat.le_trans (work_le either round all s) (none ▸ Nat.zero_le _)
      · obtain ⟨a, chosen, does⟩ := somebody s some
        have less := work_lt either all ((first a).mpr chosen) does
        rw [List.length_cons] at enough
        omega

end

/-! ## Runs of a step relation -/

inductive Reaches {σ α : Type} (step : σ → α → σ → Prop) (start : σ) : List α → σ → Prop
  | start : Reaches step start [] start
  | step {labels : List α} {s after : σ} {label : α} (run : Reaches step start labels s)
      (taken : step s label after) : Reaches step start (labels ++ [label]) after

theorem Reaches.rule {step : σ → α → σ → Prop} (holds : List α → σ → Prop) {start : σ}
    (initially : holds [] start)
    (keeps : ∀ past s label after, holds past s → step s label after → holds (past ++ [label]) after)
    {labels : List α} {s : σ} (run : Reaches step start labels s) : holds labels s := by
  induction run with
  | start => exact initially
  | step run taken ih => exact keeps _ _ _ _ ih taken

/-! ## Purging actions -/

/-- Unwinding. A relation between the states of a run and of the purged run, which may look at the
actions still to come, shows that the kept actions look alike in both: kept actions look alike in
related states and lead to related states, and purged actions keep the states related. -/
theorem purge_rule {ω : Type} (keep : α → Bool) (view : Moment σ α ρ → ω) (related : List α → σ → σ → Prop)
    (kept : ∀ a rest s t, related (a :: rest) s t → keep a = true →
      view (moment step s a) = view (moment step t a) ∧ related rest (step a s).2 (step a t).2)
    (purged : ∀ a rest s t, related (a :: rest) s t → keep a = false → related rest (step a s).2 t)
    (actions : List α) {s t : σ} (now : related actions s t) :
    ((history step s actions).filter (keep ·.action)).map view =
      (history step t (actions.filter keep)).map view := by
  induction actions generalizing s t with
  | nil => rfl
  | cons a rest ih =>
      cases chosen : keep a with
      | true =>
          obtain ⟨alike, next⟩ := kept a rest s t now chosen
          simp [history, chosen, moment] at ih alike ⊢
          exact ⟨alike, ih next⟩
      | false =>
          have next := purged a rest s t now chosen
          simp [history, chosen, moment] at ih ⊢
          exact ih next

end

end SecureChat.Library
