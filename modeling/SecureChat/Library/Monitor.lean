import Mathlib.Logic.Function.Basic
import SecureChat.Library.Program
import SecureChat.Library.Refinement

/-!
# Critical sections

Threads call functions whose bodies run under one mutex that is not recursive. A body is a program:
every request is a step of its own, and other threads take their steps in between. A thread can also
be interrupted: the handler makes a call of its own on top of what the thread was doing, and the
thread goes on only when the handler is through.

The calls are atomic in the order in which they leave their sections. Nothing is ever blocked for
good, unless the owner of the mutex is interrupted: then nobody gets the mutex any more.
-/

namespace SecureChat.Library

inductive Frame (Op : Type) (Reply : Op → Type) (ρ C : Type) where
  | waiting (call : C)
  | inside (call : C) (rest : Program Op Reply ρ)

section
variable {Op : Type} {Reply : Op → Type} {ρ C : Type}

/-- The number of sections that a thread is inside. -/
def sections : List (Frame Op Reply ρ C) → Nat
  | [] => 0
  | .waiting _ :: below => sections below
  | .inside _ _ :: below => sections below + 1

@[simp] theorem sections_nil : sections ([] : List (Frame Op Reply ρ C)) = 0 := rfl

@[simp] theorem sections_waiting (c : C) (below : List (Frame Op Reply ρ C)) :
    sections (.waiting c :: below) = sections below := rfl

@[simp] theorem sections_inside (c : C) (rest : Program Op Reply ρ) (below : List (Frame Op Reply ρ C)) :
    sections (.inside c rest :: below) = sections below + 1 := rfl

theorem sections_pos {frames : List (Frame Op Reply ρ C)} {c : C} {rest : Program Op Reply ρ}
    (member : .inside c rest ∈ frames) : 0 < sections frames := by
  induction frames with
  | nil => simp at member
  | cons f below ih =>
      cases f with
      | waiting c' => exact ih (by simpa using member)
      | inside c' rest' => exact Nat.succ_pos _

theorem inside_of_sections {frames : List (Frame Op Reply ρ C)} (some : sections frames ≠ 0) :
    ∃ c rest, .inside c rest ∈ frames := by
  induction frames with
  | nil => simp at some
  | cons f below ih =>
      cases f with
      | inside c rest => exact ⟨c, rest, List.mem_cons_self⟩
      | waiting c =>
          obtain ⟨c', rest, member⟩ := ih some
          exact ⟨c', rest, List.mem_cons_of_mem _ member⟩

end

/-- The calls of each thread, the innermost one first. -/
structure Monitor (σ Op : Type) (Reply : Op → Type) (ρ C : Type) where
  shared : σ
  owner : Option Nat
  frames : Nat → List (Frame Op Reply ρ C)

namespace Monitor

inductive Action (C : Type) where
  | call (thread : Nat) (c : C)
  | interrupt (thread : Nat) (c : C)
  | run (thread : Nat)

section
variable {σ Op : Type} {Reply : Op → Type} {ρ C : Type}

def start (s : σ) : Monitor σ Op Reply ρ C := ⟨s, none, fun _ => []⟩

variable (body : Nat → C → Program Op Reply ρ) (answer : Nat → (op : Op) → σ → Reply op × σ)

/-- A step, and the call that it completes. -/
def act : Action C → Monitor σ Op Reply ρ C → Option ((Nat × C) × ρ) × Monitor σ Op Reply ρ C
  | .call thread c, m =>
      match m.frames thread with
      | [] => (none, ⟨m.shared, m.owner, Function.update m.frames thread [.waiting c]⟩)
      | _ :: _ => (none, m)
  | .interrupt thread c, m =>
      (none, ⟨m.shared, m.owner, Function.update m.frames thread (.waiting c :: m.frames thread)⟩)
  | .run thread, m =>
      match m.frames thread with
      | [] => (none, m)
      | .waiting c :: below =>
          match m.owner with
          | none =>
              (none, ⟨m.shared, some thread, Function.update m.frames thread (.inside c (body thread c) :: below)⟩)
          | some _ => (none, m)
      | .inside c (.request op next) :: below =>
          let answered := answer thread op m.shared
          (none, ⟨answered.2, m.owner, Function.update m.frames thread (.inside c (next answered.1) :: below)⟩)
      | .inside c (.done value) :: below =>
          (some ((thread, c), value), ⟨m.shared, none, Function.update m.frames thread below⟩)

/-- The call alone. -/
def perform (call : Nat × C) (s : σ) : ρ × σ :=
  (body call.1 call.2).run (answer call.1) s

/-! ## Mutual exclusion -/

/-- The owner of the mutex is inside one section, and the other threads are inside none. -/
structure Exclusive (m : Monitor σ Op Reply ρ C) : Prop where
  owner : ∀ thread, m.owner = some thread → sections (m.frames thread) = 1
  others : ∀ thread, m.owner ≠ some thread → sections (m.frames thread) = 0

variable {m : Monitor σ Op Reply ρ C}

theorem exclusive_start (s : σ) : (start s : Monitor σ Op Reply ρ C).Exclusive :=
  ⟨by simp [start], fun _ _ => rfl⟩

theorem Exclusive.owner_of_mem (exclusive : m.Exclusive) {thread : Nat} {c : C} {rest : Program Op Reply ρ}
    (member : .inside c rest ∈ m.frames thread) : m.owner = some thread := by
  by_contra other
  exact absurd (exclusive.others thread other) (Nat.ne_of_gt (sections_pos member))

/-- A section that a thread has entered last is the only one that anybody is inside. -/
theorem Exclusive.top (exclusive : m.Exclusive) {thread : Nat} {c : C} {rest : Program Op Reply ρ}
    {below : List (Frame Op Reply ρ C)} (top : m.frames thread = .inside c rest :: below) :
    m.owner = some thread ∧ sections below = 0 := by
  have owner := exclusive.owner_of_mem (top ▸ List.mem_cons_self)
  have one := exclusive.owner thread owner
  rw [top, sections_inside] at one
  exact ⟨owner, by omega⟩

theorem Exclusive.replace (exclusive : m.Exclusive) {thread : Nat} {frames : List (Frame Op Reply ρ C)}
    (same : sections frames = sections (m.frames thread)) (shared : σ) :
    (⟨shared, m.owner, Function.update m.frames thread frames⟩ : Monitor σ Op Reply ρ C).Exclusive := by
  have counts (other : Nat) : sections (Function.update m.frames thread frames other) = sections (m.frames other) := by
    by_cases here : other = thread
    · subst here
      rw [Function.update_self, same]
    · rw [Function.update_of_ne here]
  exact ⟨fun other owner => (counts other).trans (exclusive.owner other owner),
    fun other not => (counts other).trans (exclusive.others other not)⟩

/-- What a step can do. -/
inductive Acts (m : Monitor σ Op Reply ρ C) : Option ((Nat × C) × ρ) → Monitor σ Op Reply ρ C → Prop
  | idle : Acts m none m
  | called (thread : Nat) (c : C) :
      Acts m none ⟨m.shared, m.owner, Function.update m.frames thread (.waiting c :: m.frames thread)⟩
  | entered (thread : Nat) (c : C) (below : List (Frame Op Reply ρ C))
      (top : m.frames thread = .waiting c :: below) (free : m.owner = none) :
      Acts m none ⟨m.shared, some thread, Function.update m.frames thread (.inside c (body thread c) :: below)⟩
  | answered (thread : Nat) (c : C) (op : Op) (next : Reply op → Program Op Reply ρ)
      (below : List (Frame Op Reply ρ C)) (top : m.frames thread = .inside c (.request op next) :: below) :
      Acts m none ⟨(answer thread op m.shared).2, m.owner,
        Function.update m.frames thread (.inside c (next (answer thread op m.shared).1) :: below)⟩
  | left (thread : Nat) (c : C) (value : ρ) (below : List (Frame Op Reply ρ C))
      (top : m.frames thread = .inside c (.done value) :: below) :
      Acts m (some ((thread, c), value)) ⟨m.shared, none, Function.update m.frames thread below⟩

theorem acts (a : Action C) : Acts body answer m (act body answer a m).1 (act body answer a m).2 := by
  cases a with
  | call thread c =>
      cases top : m.frames thread with
      | nil =>
          simp only [act, top]
          rw [← top]
          exact .called thread c
      | cons f below =>
          simp only [act, top]
          exact .idle
  | interrupt thread c => exact .called thread c
  | run thread =>
      cases top : m.frames thread with
      | nil =>
          simp only [act, top]
          exact .idle
      | cons f below =>
          cases f with
          | waiting c =>
              cases owner : m.owner with
              | some other =>
                  simp only [act, top, owner]
                  exact .idle
              | none =>
                  simp only [act, top, owner]
                  exact .entered thread c below top owner
          | inside c rest =>
              cases rest with
              | request op next =>
                  simp only [act, top]
                  exact .answered thread c op next below top
              | done value =>
                  simp only [act, top]
                  exact .left thread c value below top

theorem Exclusive.acts (exclusive : m.Exclusive) {output : Option ((Nat × C) × ρ)}
    {after : Monitor σ Op Reply ρ C} (acts : Acts body answer m output after) : after.Exclusive := by
  cases acts with
  | idle => exact exclusive
  | called thread c => exact exclusive.replace (sections_waiting ..) m.shared
  | entered thread c below top free =>
      have none (other : Nat) : sections (m.frames other) = 0 := exclusive.others other (by simp [free])
      constructor
      · intro other entered
        obtain rfl := Option.some.inj entered
        have zero := none thread
        rw [top, sections_waiting] at zero
        simp [zero]
      · intro other outside
        have here : other ≠ thread := fun same => outside (congrArg some same.symm)
        simp [here, none]
  | answered thread c op next below top => exact exclusive.replace (by simp [top]) _
  | left thread c value below top =>
      obtain ⟨owner, zero⟩ := exclusive.top top
      refine ⟨by simp, fun other _ => ?_⟩
      by_cases here : other = thread
      · subst here
        simpa using zero
      · have outside := exclusive.others other (by simpa [owner] using Ne.symm here)
        simpa [here] using outside

theorem Exclusive.inside (exclusive : m.Exclusive) {thread : Nat} (owner : m.owner = some thread) :
    ∃ c rest, .inside c rest ∈ m.frames thread :=
  inside_of_sections (by simp [exclusive.owner thread owner])

/-! ## Atomicity -/

/-- The calls that have left their sections have taken effect one after the other; what the owner
has left to do makes up the rest of its call. -/
structure Serial (m : Monitor σ Op Reply ρ C) (s : σ) : Prop where
  exclusive : m.Exclusive
  free : m.owner = none → m.shared = s
  held : ∀ thread c rest, .inside c rest ∈ m.frames thread →
    rest.run (answer thread) m.shared = perform body answer (thread, c) s

variable {body answer} {s : σ}

theorem mem_update {thread other : Nat} {frames : List (Frame Op Reply ρ C)} {f : Frame Op Reply ρ C}
    (member : f ∈ Function.update m.frames thread frames other) :
    other = thread ∧ f ∈ frames ∨ other ≠ thread ∧ f ∈ m.frames other := by
  by_cases here : other = thread
  · subst here
    exact .inl ⟨rfl, by simpa using member⟩
  · exact .inr ⟨here, by simpa [here] using member⟩

theorem Exclusive.alone_below (exclusive : m.Exclusive) {thread : Nat} {c c' : C} {rest rest' : Program Op Reply ρ}
    {below : List (Frame Op Reply ρ C)} (top : m.frames thread = .inside c rest :: below) :
    .inside c' rest' ∉ below :=
  fun member => absurd (exclusive.top top).2 (Nat.ne_of_gt (sections_pos member))

theorem Exclusive.alone (exclusive : m.Exclusive) {thread other : Nat} {c c' : C} {rest rest' : Program Op Reply ρ}
    {below : List (Frame Op Reply ρ C)} (top : m.frames thread = .inside c rest :: below)
    (differ : other ≠ thread) : .inside c' rest' ∉ m.frames other := by
  intro member
  have owner := exclusive.owner_of_mem member
  rw [(exclusive.top top).1, Option.some.injEq] at owner
  exact differ owner.symm

theorem Serial.acts (serial : m.Serial body answer s) {output : Option ((Nat × C) × ρ)}
    {after : Monitor σ Op Reply ρ C} (acts : Acts body answer m output after) :
    (output = none → after.Serial body answer s) ∧
    ∀ call value, output = some (call, value) → (perform body answer call s).1 = value ∧
      after.Serial body answer (perform body answer call s).2 := by
  have exclusive := serial.exclusive.acts body answer acts
  cases acts with
  | idle => exact ⟨fun _ => serial, by simp⟩
  | called thread c =>
      refine ⟨fun _ => ⟨exclusive, serial.free, fun other c' rest member => ?_⟩, by simp⟩
      rcases mem_update member with ⟨rfl, here⟩ | ⟨_, there⟩
      · exact serial.held _ c' rest (by simpa using here)
      · exact serial.held other c' rest there
  | entered thread c below top free =>
      refine ⟨fun _ => ⟨exclusive, by simp, fun other c' rest member => ?_⟩, by simp⟩
      have outside (other : Nat) (frame : .inside c' rest ∈ m.frames other) : False := by
        have owner := serial.exclusive.owner_of_mem frame
        simp [free] at owner
      rcases mem_update member with ⟨rfl, here⟩ | ⟨_, there⟩
      · rcases List.mem_cons.mp here with same | there
        · cases same
          simp only [serial.free free]
          rfl
        · exact absurd (top ▸ List.mem_cons_of_mem _ there) (outside other)
      · exact absurd there (outside other)
  | answered thread c op next below top =>
      have ran := serial.held thread c _ (top ▸ List.mem_cons_self)
      refine ⟨fun _ => ⟨exclusive, fun owner => ?_, fun other c' rest member => ?_⟩, by simp⟩
      · have held : m.owner = none := owner
        rw [(serial.exclusive.top top).1] at held
        contradiction
      · rcases mem_update member with ⟨rfl, here⟩ | ⟨differ, there⟩
        · rcases List.mem_cons.mp here with same | there
          · cases same
            exact ran
          · exact absurd there (serial.exclusive.alone_below top)
        · exact absurd there (serial.exclusive.alone top differ)
  | left thread c value below top =>
      have ran := serial.held thread c _ (top ▸ List.mem_cons_self)
      refine ⟨by simp, fun call value' committed => ?_⟩
      obtain ⟨rfl, rfl⟩ := Prod.mk.inj (Option.some.inj committed)
      rw [← ran]
      refine ⟨rfl, exclusive, fun _ => rfl, fun other c' rest member => ?_⟩
      rcases mem_update member with ⟨rfl, here⟩ | ⟨differ, there⟩
      · exact absurd here (serial.exclusive.alone_below top)
      · exact absurd there (serial.exclusive.alone top differ)

/-- Every run of the threads is a run of whole calls, in the order in which they leave. -/
theorem atomic (start' : σ) (actions : List (Action C)) :
    let log := commits (fun output => output) (history (act body answer) (start start') actions)
    Legal (perform body answer) start' log ∧
      (final (act body answer) (start start') actions).Serial body answer
        (final (perform body answer) start' (log.map Prod.fst)) := by
  refine refinement_rule (act body answer) (perform body answer) (fun output => output) (Serial body answer)
    ⟨exclusive_start start', fun _ => rfl, fun _ _ _ member => nomatch member⟩ ?_ ?_ actions
  · intro m s a serial silent
    exact (serial.acts (acts body answer a)).1 silent
  · intro m s a call value serial committed
    exact (serial.acts (acts body answer a)).2 call value committed

/-! ## What a call has done so far -/

section
variable (reaches : σ → σ → Prop) (refl : ∀ s, reaches s s) (trans : ∀ s t u, reaches s t → reaches t u → reaches s u)
  (grows : ∀ thread op s, reaches s (answer thread op s).2)
include refl trans grows

theorem run_reaches (thread : Nat) (p : Program Op Reply ρ) (s : σ) : reaches s (p.run (answer thread) s).2 := by
  induction p generalizing s with
  | done value => exact refl s
  | request op next ih => exact trans _ _ _ (grows thread op s) (ih _ _)

private theorem between_silent (now : m.Serial body answer s ∧ reaches s m.shared) (a : Action C)
    (silent : (act body answer a m).1 = none) :
    (act body answer a m).2.Serial body answer s ∧ reaches s (act body answer a m).2.shared := by
  refine ⟨(now.1.acts (acts body answer a)).1 silent, trans _ _ _ now.2 ?_⟩
  have acts := acts body answer (m := m) a
  generalize (act body answer a m).1 = output at acts
  generalize (act body answer a m).2 = after at acts ⊢
  cases acts with
  | answered thread c op next below top => exact grows thread op m.shared
  | _ => exact refl _

omit trans grows in
private theorem between_committed (now : m.Serial body answer s ∧ reaches s m.shared) (a : Action C)
    {call : Nat × C} {value : ρ} (committed : (act body answer a m).1 = some (call, value)) :
    (perform body answer call s).1 = value ∧
      (act body answer a m).2.Serial body answer (perform body answer call s).2 ∧
      reaches (perform body answer call s).2 (act body answer a m).2.shared := by
  obtain ⟨result, serial⟩ := (now.1.acts (acts body answer a)).2 call value committed
  refine ⟨result, serial, ?_⟩
  have acts := acts body answer (m := m) a
  rw [committed] at acts
  generalize (act body answer a m).2 = after at acts serial ⊢
  cases acts with
  | left thread c value below top =>
      rw [serial.free rfl]
      exact refl _

variable (body answer) in
/-- What the mutex protects lies between the calls that have left and the call of the owner. -/
theorem between (start' : σ) (actions : List (Action C)) :
    let now := final (act body answer) (start start') actions
    let s := final (perform body answer) start'
      ((commits (fun output => output) (history (act body answer) (start start') actions)).map Prod.fst)
    reaches s now.shared ∧ ∀ thread c rest, .inside c rest ∈ now.frames thread →
      reaches now.shared (perform body answer (thread, c) s).2 := by
  intro now s
  have related : now.Serial body answer s ∧ reaches s now.shared := by
    refine (refinement_rule (act body answer) (perform body answer) (fun output => output)
      (fun m s => m.Serial body answer s ∧ reaches s m.shared)
      ⟨⟨exclusive_start start', fun _ => rfl, fun _ _ _ member => nomatch member⟩, refl start'⟩ ?_ ?_ actions).2
    · intro m s a now silent
      exact between_silent reaches refl trans grows now a silent
    · intro m s a call value now committed
      exact between_committed reaches refl now a committed
  refine ⟨related.2, fun thread c rest inside => ?_⟩
  rw [← related.1.held thread c rest inside]
  exact run_reaches reaches refl trans grows thread rest _

end

/-! ## Interrupted owners -/

/-- The owner of the mutex is not at work in its section: a handler runs on top of it. -/
def Interrupted (m : Monitor σ Op Reply ρ C) : Prop :=
  ∃ thread c below, m.owner = some thread ∧ m.frames thread = .waiting c :: below

variable (body answer) in
theorem interrupted_act (interrupted : m.Interrupted) (exclusive : m.Exclusive) (a : Action C) :
    (act body answer a m).1 = none ∧ (act body answer a m).2.shared = m.shared ∧
      (act body answer a m).2.owner = m.owner ∧ (act body answer a m).2.Interrupted := by
  obtain ⟨thread, c, below, owner, top⟩ := interrupted
  have here (other : Nat) (c' : C) (rest : Program Op Reply ρ) (below' : List (Frame Op Reply ρ C)) :
      m.frames other ≠ .inside c' rest :: below' := by
    intro inside
    have same := (exclusive.top inside).1
    rw [owner, Option.some.injEq] at same
    rw [← same, top] at inside
    cases inside
  have acts := acts body answer (m := m) a
  generalize (act body answer a m).1 = output at acts ⊢
  generalize (act body answer a m).2 = after at acts ⊢
  cases acts with
  | idle => exact ⟨rfl, rfl, rfl, thread, c, below, owner, top⟩
  | called other c' =>
      refine ⟨rfl, rfl, rfl, thread, ?_⟩
      by_cases same : other = thread
      · subst same
        exact ⟨c', m.frames other, owner, Function.update_self ..⟩
      · exact ⟨c, below, owner, (Function.update_of_ne (Ne.symm same) ..).trans top⟩
  | entered other c' below' top' free =>
      rw [owner] at free
      contradiction
  | answered other c' op next below' top' => exact (here _ _ _ _ top').elim
  | left other c' value below' top' => exact (here _ _ _ _ top').elim

variable (body answer) in
/-- From then on no call completes, and nothing changes what the mutex protects. -/
theorem interrupted_forever (interrupted : m.Interrupted) (exclusive : m.Exclusive) (actions : List (Action C)) :
    commits (fun output => output) (history (act body answer) m actions) = [] ∧
      (final (act body answer) m actions).shared = m.shared ∧
      (final (act body answer) m actions).owner = m.owner ∧
      (final (act body answer) m actions).Interrupted := by
  have all := history_rule (act body answer)
    (fun h now => now.Exclusive ∧ commits (fun output => output) h = [] ∧ now.shared = m.shared ∧
      now.owner = m.owner ∧ now.Interrupted)
    ⟨exclusive, rfl, rfl, rfl, interrupted⟩ ?_ actions
  · exact all.2
  · intro past now a earlier
    obtain ⟨exclusive, silent, shared, owner, interrupted⟩ := earlier
    obtain ⟨none, same, sameOwner, still⟩ := interrupted_act body answer interrupted exclusive a
    refine ⟨exclusive.acts body answer (acts body answer a), ?_, same.trans shared, sameOwner.trans owner, still⟩
    rw [commits_concat, silent, moment, none]
    rfl

variable (body answer) in
/-- An owner is interrupted by nothing but an interrupt. -/
theorem interrupted_of_act (exclusive : m.Exclusive) {a : Action C} (free : ¬ m.Interrupted)
    (interrupted : (act body answer a m).2.Interrupted) :
    ∃ thread c, a = .interrupt thread c ∧ m.owner = some thread := by
  obtain ⟨owner, c, below, owned, top⟩ := interrupted
  have elsewhere {thread : Nat} {frames : List (Frame Op Reply ρ C)} (differ : owner ≠ thread)
      (owned : m.owner = some owner) : Function.update m.frames thread frames owner ≠ .waiting c :: below := by
    rw [Function.update_of_ne differ]
    exact fun top => free ⟨owner, c, below, owned, top⟩
  cases a with
  | interrupt thread c' =>
      refine ⟨thread, c', rfl, ?_⟩
      by_contra other
      exact elsewhere (fun same : owner = thread => other (same ▸ owned)) owned top
  | call thread c' =>
      cases idle : m.frames thread with
      | nil =>
          simp only [act, idle] at owned top
          refine (elsewhere (fun same => ?_) owned top).elim
          have one := exclusive.owner owner owned
          rw [same, idle] at one
          contradiction
      | cons f frames =>
          simp only [act, idle] at owned top
          exact (free ⟨owner, c, below, owned, top⟩).elim
  | run thread =>
      cases frames : m.frames thread with
      | nil =>
          simp only [act, frames] at owned top
          exact (free ⟨owner, c, below, owned, top⟩).elim
      | cons f below' =>
          cases f with
          | waiting c' =>
              cases taken : m.owner with
              | some other =>
                  simp only [act, frames, taken] at owned top
                  exact (free ⟨owner, c, below, taken.trans owned, top⟩).elim
              | none =>
                  simp only [act, frames, taken, Option.some.injEq] at owned top
                  rw [← owned, Function.update_self] at top
                  cases top
          | inside c' rest =>
              cases rest with
              | done value =>
                  simp only [act, frames] at owned
                  contradiction
              | request op next =>
                  simp only [act, frames] at owned top
                  rw [(exclusive.top frames).1, Option.some.injEq] at owned
                  rw [← owned, Function.update_self] at top
                  cases top

variable (body answer) in
theorem exclusive_final (start' : σ) (actions : List (Action C)) :
    (final (act body answer) (start start') actions).Exclusive :=
  final_rule (act body answer) Exclusive (exclusive_start start')
    (fun _ a exclusive => exclusive.acts body answer (acts body answer a)) actions

variable (body answer) in
theorem interrupted_iff (start' : σ) (actions : List (Action C)) :
    (final (act body answer) (start start') actions).Interrupted ↔
      ∃ first thread c rest, actions = first ++ .interrupt thread c :: rest ∧
        (final (act body answer) (start start') first).owner = some thread := by
  induction actions using List.reverseRecOn with
  | nil => simp [Interrupted, final, start]
  | append_singleton actions a ih =>
      have exclusive := exclusive_final body answer start' actions
      rw [final_concat]
      constructor
      · intro interrupted
        by_cases before : (final (act body answer) (start start') actions).Interrupted
        · obtain ⟨first, thread, c, rest, split, owner⟩ := ih.mp before
          exact ⟨first, thread, c, rest ++ [a], by simp [split], owner⟩
        · obtain ⟨thread, c, rfl, owner⟩ := interrupted_of_act body answer exclusive before interrupted
          exact ⟨actions, thread, c, [], rfl, owner⟩
      · rintro ⟨first, thread, c, rest, split, owner⟩
        rcases concat_eq_append_cons.mp split with ⟨rfl, rfl, _⟩ | ⟨middle, rfl, before⟩
        · exact ⟨thread, c, _, owner, Function.update_self ..⟩
        · exact (interrupted_act body answer (ih.mpr ⟨first, thread, c, middle, before, owner⟩) exclusive a).2.2.2

/-! ## Calls that can complete -/

variable (body answer)

def turns (n : Nat) (thread : Nat) : List (Action C) := List.replicate n (.run thread)

theorem finish (rest : Program Op Reply ρ) {thread : Nat} {c : C} {below : List (Frame Op Reply ρ C)}
    (top : m.frames thread = .inside c rest :: below) : ∃ n,
      (final (act body answer) m (turns n thread)).owner = none ∧
      (final (act body answer) m (turns n thread)).frames = Function.update m.frames thread below := by
  induction rest generalizing m with
  | done value => exact ⟨1, by simp [turns, final, act, top]⟩
  | request op next ih =>
      let after : Monitor σ Op Reply ρ C := (act body answer (.run thread) m).2
      have acted : after = ⟨(answer thread op m.shared).2, m.owner,
          Function.update m.frames thread (.inside c (next (answer thread op m.shared).1) :: below)⟩ := by
        simp only [after, act, top]
      obtain ⟨n, owner, frames⟩ := ih (answer thread op m.shared).1 (m := after) (by simp [acted])
      refine ⟨n + 1, owner, frames.trans ?_⟩
      rw [acted, Function.update_idem]

theorem drain {frames : List (Frame Op Reply ρ C)} {thread : Nat} (waiting : sections frames = 0)
    (top : m.frames thread = frames) (free : m.owner = none) :
    ∃ n, (final (act body answer) m (turns n thread)).frames thread = [] := by
  induction frames generalizing m with
  | nil => exact ⟨0, top⟩
  | cons f below ih =>
      cases f with
      | inside c rest => simp at waiting
      | waiting c =>
          let entered : Monitor σ Op Reply ρ C := (act body answer (.run thread) m).2
          have acted : entered = ⟨m.shared, some thread,
              Function.update m.frames thread (.inside c (body thread c) :: below)⟩ := by
            simp only [entered, act, top, free]
          have inside : entered.frames thread = .inside c (body thread c) :: below := by simp [acted]
          obtain ⟨n, owner, frames⟩ := finish body answer (body thread c) inside
          obtain ⟨k, empty⟩ := ih waiting (by simp [frames]) owner
          refine ⟨1 + (n + k), ?_⟩
          rw [turns, ← List.replicate_append_replicate, ← List.replicate_append_replicate, final_append,
            final_append]
          exact empty

/-- Every call can complete, unless the owner of the mutex is interrupted: then its calls never do. -/
theorem completes_iff (exclusive : m.Exclusive) :
    (∀ thread, ∃ actions, (final (act body answer) m actions).frames thread = []) ↔ ¬ m.Interrupted := by
  constructor
  · intro completes interrupted
    obtain ⟨thread, c, below, owner, top⟩ := id interrupted
    obtain ⟨actions, empty⟩ := completes thread
    obtain ⟨_, _, same, other, c', below', owner', top'⟩ :=
      interrupted_forever body answer interrupted exclusive actions
    rw [same, owner, Option.some.injEq] at owner'
    rw [← owner', empty] at top'
    contradiction
  · intro free thread
    cases owner : m.owner with
    | none =>
        have outside := exclusive.others thread (by simp [owner])
        obtain ⟨n, empty⟩ := drain body answer outside rfl owner
        exact ⟨_, empty⟩
    | some holder =>
        have one := exclusive.owner holder owner
        match top : m.frames holder, one with
        | .waiting c :: below, _ => exact absurd ⟨holder, c, below, owner, top⟩ free
        | .inside c rest :: below, one =>
            obtain ⟨n, released, frames⟩ := finish body answer rest top
            have outside : sections ((final (act body answer) m (turns n holder)).frames thread) = 0 := by
              rw [frames]
              by_cases here : thread = holder
              · subst here
                simpa using (exclusive.top top).2
              · rw [Function.update_of_ne here]
                exact exclusive.others thread (by simpa [owner] using Ne.symm here)
            obtain ⟨k, empty⟩ := drain body answer outside rfl released
            exact ⟨turns n holder ++ turns k thread, by rw [final_append, empty]⟩

end
end Monitor
end SecureChat.Library
