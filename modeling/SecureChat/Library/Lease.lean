import Mathlib.Data.Finset.Card
import SecureChat.Library.Machine
import SecureChat.Library.Program

/-!
# Pools of resources

Threads call functions that lease a resource of a pool for a part of their bodies. Some requests go
over the resource that the call has leased; the others are made without one. A call that finds no
free resource waits, and a call that finds no free thread is not started. The replies to some
requests are read by a thread that handles no call, so they do not come while every thread does.

A call holds at most one resource, so the calls that hold one never wait for another: as long as a
thread is free, all calls can be brought to their ends. When every thread handles a call that waits
for a reply, nothing happens any more.
-/

namespace SecureChat.Library

inductive Leased (Op : Type) where
  | lease
  | ask (resource : Option Nat) (op : Op)
  | giveBack (resource : Nat)

def Leased.Reply {Op : Type} (Reply : Op → Type) : Leased Op → Type
  | .lease => Nat
  | .ask _ op => Reply op
  | .giveBack _ => Unit

abbrev LeasedProgram (Op : Type) (Reply : Op → Type) (α : Type) :=
  Program (Leased Op) (Leased.Reply Reply) α

section
variable {Op : Type} {Reply : Op → Type} {α β : Type} (needs : Op → Bool)

/-- The program, with the requests that need a resource going over the given one. -/
def Program.over (resource : Option Nat) : Program Op Reply α → LeasedProgram Op Reply α
  | .done value => .done value
  | .request op next =>
      .request (.ask (if needs op then resource else none) op) fun reply => (next reply).over resource

/-- The program in a scope of its own, at whose end the resource is given back. -/
def Program.scoped (p : Program Op Reply α) : LeasedProgram Op Reply α :=
  .request .lease fun resource : Nat =>
    (p.over needs (some resource)).bind fun value => .request (.giveBack resource) fun _ => .done value

/-- The program plays the plain one, holding the given resource: it leases no second one, makes its
requests over the one it holds, and has given it back at its end. -/
inductive Plays : Option Nat → LeasedProgram Op Reply α → Program Op Reply α → Prop
  | done (value : α) : Plays none (.done value) (.done value)
  | lease (next : Nat → LeasedProgram Op Reply α) (p : Program Op Reply α)
      (rest : ∀ resource : Nat, Plays (some resource) (next resource) p) : Plays none (.request .lease next) p
  | ask (held : Option Nat) (op : Op) (next : Reply op → LeasedProgram Op Reply α)
      (next' : Reply op → Program Op Reply α) (leased : needs op = true → held.isSome)
      (rest : ∀ reply, Plays held (next reply) (next' reply)) :
      Plays held (.request (.ask (if needs op then held else none) op) next) (.request op next')
  | giveBack (resource : Nat) (next : Unit → LeasedProgram Op Reply α) (p : Program Op Reply α)
      (rest : Plays none (next ()) p) : Plays (some resource) (.request (.giveBack resource) next) p

variable {needs}

theorem plays_scoped (p : Program Op Reply α) : Plays needs none (p.scoped needs) p := by
  refine .lease _ _ fun resource => ?_
  induction p with
  | done value => exact .giveBack resource _ _ (.done value)
  | request op next ih => exact .ask (some resource) op _ _ (fun _ => rfl) ih

theorem plays_over {p : Program Op Reply α} (avoids : p.Avoids (needs · = true)) :
    Plays needs none (p.over needs none) p := by
  induction p with
  | done value => exact .done value
  | request op next ih =>
      exact .ask none op _ _ (fun need => absurd need avoids.1) fun reply => ih reply (avoids.2 reply)

theorem Plays.bind {held : Option Nat} {p : LeasedProgram Op Reply α} {p' : Program Op Reply α}
    {f : α → LeasedProgram Op Reply β} {f' : α → Program Op Reply β} (plays : Plays needs held p p')
    (rest : ∀ value, Plays needs none (f value) (f' value)) : Plays needs held (p.bind f) (p'.bind f') := by
  induction plays with
  | done value => exact rest value
  | lease next p _ ih => exact .lease _ _ ih
  | ask held op next next' leased _ ih => exact .ask held op _ _ leased ih
  | giveBack resource next p _ ih => exact .giveBack resource _ _ ih

/-- A request whose reply has to be waited for. -/
def Awaiting (awaits : Op → Bool) (request : Leased Op) : Prop :=
  ∃ resource op, request = .ask resource op ∧ awaits op

theorem Plays.avoids {awaits : Op → Bool} {held : Option Nat} {p : LeasedProgram Op Reply α}
    {p' : Program Op Reply α} (plays : Plays needs held p p') (avoids : p'.Avoids (awaits · = true)) :
    p.Avoids (Awaiting awaits) := by
  induction plays with
  | done value => trivial
  | lease next p _ ih => exact ⟨fun ⟨_, _, same, _⟩ => (nomatch same), fun resource => ih resource avoids⟩
  | ask held op next next' _ _ ih =>
      refine ⟨?_, fun reply => ih reply (avoids.2 reply)⟩
      rintro ⟨_, _, ⟨⟩, waits⟩
      exact avoids.1 waits
  | giveBack resource next p _ ih => exact ⟨fun ⟨_, _, same, _⟩ => (nomatch same), fun _ => ih avoids⟩

end

/-! ## The machine -/

/-- The thread that holds each resource, and the calls with what they have still to do. -/
structure Leases (σ Op : Type) (Reply : Op → Type) (ρ C : Type) where
  shared : σ
  holders : List (Option Nat)
  threads : List (C × LeasedProgram Op Reply ρ)

namespace Leases

inductive Action (C : Type) where
  | call (c : C)
  | run (thread : Nat)

structure Turn (Op C : Type) where
  thread : Nat
  call : C
  request : Option (Leased Op)

section
variable {σ Op : Type} {Reply : Op → Type} {ρ C : Type}

def start (s : σ) (size : Nat) : Leases σ Op Reply ρ C := ⟨s, List.replicate size none, []⟩

def isBusy (l : Leases σ Op Reply ρ C) (thread : Nat) : Bool :=
  l.threads[thread]?.any fun t => t.2.value?.isNone

def busy (l : Leases σ Op Reply ρ C) : Finset Nat :=
  (Finset.range l.threads.length).filter fun thread => l.isBusy thread

variable (body : C → σ → LeasedProgram Op Reply ρ) (answer : C → (op : Op) → σ → Reply op × σ) (limit : Nat)
  (awaits : Op → Bool)

def act : Action C → Leases σ Op Reply ρ C → Option (Turn Op C) × Leases σ Op Reply ρ C
  | .call c, l =>
      if l.busy.card < limit then
        (some ⟨l.threads.length, c, none⟩, { l with threads := l.threads ++ [(c, body c l.shared)] })
      else (none, l)
  | .run thread, l =>
      match l.threads[thread]? with
      | some (c, .request .lease next) =>
          match l.holders.findIdx? Option.isNone with
          | some resource => (some ⟨thread, c, some .lease⟩,
              ⟨l.shared, l.holders.set resource (some thread), l.threads.set thread (c, next resource)⟩)
          | none => (none, l)
      | some (c, .request (.ask resource op) next) =>
          if awaits op → l.busy.card < limit then
            let answered := answer c op l.shared
            (some ⟨thread, c, some (.ask resource op)⟩,
              ⟨answered.2, l.holders, l.threads.set thread (c, next answered.1)⟩)
          else (none, l)
      | some (c, .request (.giveBack resource) next) =>
          (some ⟨thread, c, some (.giveBack resource)⟩,
            ⟨l.shared, l.holders.set resource none, l.threads.set thread (c, next ())⟩)
      | _ => (none, l)

variable {l : Leases σ Op Reply ρ C}

theorem isBusy_iff {thread : Nat} :
    l.isBusy thread = true ↔ ∃ c p, l.threads[thread]? = some (c, p) ∧ p.value? = none := by
  unfold isBusy
  cases there : l.threads[thread]? with
  | none => simp
  | some t =>
      obtain ⟨c, p⟩ := t
      simp

theorem mem_busy {thread : Nat} : thread ∈ l.busy ↔ l.isBusy thread = true := by
  rw [busy, Finset.mem_filter, Finset.mem_range, and_iff_right_iff_imp]
  intro busy
  obtain ⟨c, p, there, _⟩ := isBusy_iff.mp busy
  exact (List.getElem?_eq_some_iff.mp there).1

/-- What a step can do. -/
inductive Acts (l : Leases σ Op Reply ρ C) : Option (Turn Op C) → Leases σ Op Reply ρ C → Prop
  | idle : Acts l none l
  | called (c : C) (room : l.busy.card < limit) :
      Acts l (some ⟨l.threads.length, c, none⟩) { l with threads := l.threads ++ [(c, body c l.shared)] }
  | leased (thread : Nat) (c : C) (next : Nat → LeasedProgram Op Reply ρ) (resource : Nat)
      (there : l.threads[thread]? = some (c, .request .lease next)) (free : l.holders[resource]? = some none) :
      Acts l (some ⟨thread, c, some .lease⟩)
        ⟨l.shared, l.holders.set resource (some thread), l.threads.set thread (c, next resource)⟩
  | asked (thread : Nat) (c : C) (resource : Option Nat) (op : Op) (next : Reply op → LeasedProgram Op Reply ρ)
      (there : l.threads[thread]? = some (c, .request (.ask resource op) next))
      (read : awaits op → l.busy.card < limit) :
      Acts l (some ⟨thread, c, some (.ask resource op)⟩)
        ⟨(answer c op l.shared).2, l.holders, l.threads.set thread (c, next (answer c op l.shared).1)⟩
  | gaveBack (thread : Nat) (c : C) (resource : Nat) (next : Unit → LeasedProgram Op Reply ρ)
      (there : l.threads[thread]? = some (c, .request (.giveBack resource) next)) :
      Acts l (some ⟨thread, c, some (.giveBack resource)⟩)
        ⟨l.shared, l.holders.set resource none, l.threads.set thread (c, next ())⟩

theorem free_of_findIdx? {holders : List (Option Nat)} {resource : Nat}
    (found : holders.findIdx? Option.isNone = some resource) : holders[resource]? = some none := by
  obtain ⟨within, none, _⟩ := List.findIdx?_eq_some_iff_getElem.mp found
  rw [List.getElem?_eq_getElem within, Option.isNone_iff_eq_none.mp none]

theorem acts (a : Action C) :
    Acts body answer limit awaits l (act body answer limit awaits a l).1 (act body answer limit awaits a l).2 := by
  cases a with
  | call c =>
      by_cases room : l.busy.card < limit
      · simp only [act, if_pos room]
        exact .called c room
      · simp only [act, if_neg room]
        exact .idle
  | run thread =>
      rcases there : l.threads[thread]? with _ | ⟨c, _ | ⟨_ | ⟨resource, op⟩ | resource, next⟩⟩
      · simp only [act, there]
        exact .idle
      · simp only [act, there]
        exact .idle
      · cases found : l.holders.findIdx? Option.isNone with
        | none =>
            simp only [act, there, found]
            exact .idle
        | some resource =>
            simp only [act, there, found]
            exact .leased thread c next resource there (free_of_findIdx? found)
      · by_cases read : awaits op → l.busy.card < limit
        · simp only [act, there, if_pos read]
          exact .asked thread c resource op next there read
        · simp only [act, there, if_neg read]
          exact .idle
      · simp only [act, there]
        exact .gaveBack thread c resource next there

/-! ## Who holds what -/

/-- The resource that the thread holds, if it holds one. -/
def Holds (l : Leases σ Op Reply ρ C) (thread : Nat) (held : Option Nat) : Prop :=
  ∀ resource, l.holders[resource]? = some (some thread) ↔ held = some resource

variable (needs : Op → Bool) (size : Nat)

structure Sound (l : Leases σ Op Reply ρ C) : Prop where
  size : l.holders.length = size
  busy : l.busy.card ≤ limit
  holders : ∀ resource thread : Nat, l.holders[resource]? = some (some thread) → thread < l.threads.length
  plays : ∀ (thread : Nat) c p, l.threads[thread]? = some (c, p) →
    ∃ held p', Plays needs held p p' ∧ l.Holds thread held

theorem sound_start (s : σ) : (start s size : Leases σ Op Reply ρ C).Sound limit needs size where
  size := List.length_replicate
  busy := Nat.zero_le _
  holders resource thread held := by simp [start, List.getElem?_replicate] at held
  plays thread c p there := by simp [start] at there

variable {needs size limit awaits body answer}

theorem busy_set {after : Leases σ Op Reply ρ C} {thread : Nat} {t : C × LeasedProgram Op Reply ρ}
    (busy : l.isBusy thread = true) (ran : after.threads = l.threads.set thread t) : after.busy ⊆ l.busy := by
  intro other later
  rw [mem_busy] at later ⊢
  by_cases same : other = thread
  · rw [same]
    exact busy
  · rw [isBusy, ran, List.getElem?_set_ne (Ne.symm same)] at later
    exact later

theorem busy_append (t : C × LeasedProgram Op Reply ρ) :
    ({ l with threads := l.threads ++ [t] } : Leases σ Op Reply ρ C).busy ⊆
      insert l.threads.length l.busy := by
  intro thread later
  rw [mem_busy, isBusy] at later
  rw [Finset.mem_insert, mem_busy, isBusy]
  rcases Nat.lt_trichotomy thread l.threads.length with before | same | after
  · rw [List.getElem?_append_left before] at later
    exact .inr later
  · exact .inl same
  · rw [List.getElem?_eq_none (by rw [List.length_append]; exact after)] at later
    contradiction

theorem isBusy_of_request {thread : Nat} {c : C} {op : Leased Op} {next : Leased.Reply Reply op → LeasedProgram Op Reply ρ}
    (there : l.threads[thread]? = some (c, .request op next)) : l.isBusy thread = true :=
  isBusy_iff.mpr ⟨c, _, there, rfl⟩

/-- A step of one thread keeps what the other threads hold. -/
theorem Sound.update (sound : l.Sound limit needs size) {thread : Nat} {c : C}
    {op : Leased Op} {next : Leased.Reply Reply op → LeasedProgram Op Reply ρ}
    (there : l.threads[thread]? = some (c, .request op next)) (s : σ) {holders : List (Option Nat)}
    (same : holders.length = l.holders.length)
    (others : ∀ other, other ≠ thread → ∀ resource : Nat,
      holders[resource]? = some (some other) ↔ l.holders[resource]? = some (some other))
    {held : Option Nat} (holds : ∀ resource : Nat, holders[resource]? = some (some thread) ↔ held = some resource)
    {p : LeasedProgram Op Reply ρ} {p' : Program Op Reply ρ} (plays : Plays needs held p p') :
    Sound limit needs size ⟨s, holders, l.threads.set thread (c, p)⟩ where
  size := same.trans sound.size
  busy := (Finset.card_le_card (busy_set (t := (c, p)) (isBusy_of_request there) rfl)).trans sound.busy
  holders resource other held' := by
    rw [List.length_set]
    by_cases here : other = thread
    · rw [here]
      exact (List.getElem?_eq_some_iff.mp there).1
    · exact sound.holders resource other ((others other here resource).mp held')
  plays other c' q found := by
    by_cases here : thread = other
    · subst here
      rw [List.getElem?_set_self (List.getElem?_eq_some_iff.mp there).1, Option.some.injEq, Prod.mk.injEq] at found
      obtain ⟨rfl, rfl⟩ := found
      exact ⟨held, p', plays, holds⟩
    · rw [List.getElem?_set_ne here] at found
      obtain ⟨held', q', plays', holds'⟩ := sound.plays other c' q found
      exact ⟨held', q', plays', fun resource => (others other (Ne.symm here) resource).trans (holds' resource)⟩

theorem Sound.call (sound : l.Sound limit needs size) (bodies : ∀ c s, ∃ p', Plays needs none (body c s) p') (c : C)
    (room : l.busy.card < limit) :
    Sound limit needs size { l with threads := l.threads ++ [(c, body c l.shared)] } := by
  refine ⟨sound.size, ?_, fun resource thread held => ?_, fun thread c' q found => ?_⟩
  · calc _ ≤ (insert l.threads.length l.busy).card := Finset.card_le_card (busy_append _)
      _ ≤ l.busy.card + 1 := Finset.card_insert_le _ _
      _ ≤ limit := room
  · rw [List.length_append]
    exact Nat.lt_add_right _ (sound.holders resource thread held)
  · rw [List.getElem?_append] at found
    split at found
    · exact sound.plays thread c' q found
    · next late =>
        rw [List.getElem?_singleton] at found
        split at found
        · cases found
          obtain ⟨p', plays⟩ := bodies c l.shared
          refine ⟨none, p', plays, fun resource => ⟨fun held => ?_, fun none => by contradiction⟩⟩
          exact absurd (sound.holders resource thread held) late
        · contradiction

theorem Sound.step (sound : l.Sound limit needs size) (bodies : ∀ c s, ∃ p', Plays needs none (body c s) p')
    {output : Option (Turn Op C)} {after : Leases σ Op Reply ρ C} (acts : Acts body answer limit awaits l output after) :
    after.Sound limit needs size := by
  cases acts with
  | idle => exact sound
  | called c room => exact sound.call bodies c room
  | leased thread c next resource there free =>
      obtain ⟨held, p', plays, holds⟩ := sound.plays thread c _ there
      cases plays with
      | lease next p rest =>
          have within := (List.getElem?_eq_some_iff.mp free).1
          refine sound.update there _ List.length_set (fun other here r => ?_) (fun r => ?_) (rest resource)
          · rw [List.getElem?_set]
            grind
          · rw [List.getElem?_set]
            have := holds r
            grind
  | asked thread c resource op next there read =>
      obtain ⟨held, p', plays, holds⟩ := sound.plays thread c _ there
      cases plays with
      | ask held op next next' leased rest => exact sound.update there _ rfl (fun _ _ _ => Iff.rfl) holds (rest _)
  | gaveBack thread c resource next there =>
      obtain ⟨held, p', plays, holds⟩ := sound.plays thread c _ there
      cases plays with
      | giveBack resource next p rest =>
          refine sound.update there _ List.length_set (fun other here r => ?_) (fun r => ?_) rest
          · rw [List.getElem?_set]
            have := holds resource
            grind
          · rw [List.getElem?_set]
            have := holds r
            grind

/-- Requests that need a resource go over the one that their thread holds, the others over none. -/
def Proper (needs : Op → Bool) (l : Leases σ Op Reply ρ C) (output : Option (Turn Op C)) : Prop :=
  ∀ thread c resource op, output = some ⟨thread, c, some (.ask resource op)⟩ →
    if needs op then ∃ r : Nat, resource = some r ∧ l.holders[r]? = some (some thread) else resource = none

theorem Sound.proper (sound : l.Sound limit needs size) {output : Option (Turn Op C)}
    {after : Leases σ Op Reply ρ C} (acts : Acts body answer limit awaits l output after) : l.Proper needs output := by
  rintro thread c resource op rfl
  cases acts with
  | asked thread c resource op next there read =>
      obtain ⟨held, p', plays, holds⟩ := sound.plays thread c _ there
      cases plays with
      | ask held op next next' leased rest =>
          by_cases need : needs op = true
          · obtain ⟨r, rfl⟩ := Option.isSome_iff_exists.mp (leased need)
            simp only [need, if_true]
            exact ⟨r, rfl, (holds r).mpr rfl⟩
          · simp only [need, if_false, Bool.false_eq_true]

/-! ## Steps of one thread -/

def Finished (l : Leases σ Op Reply ρ C) (thread : Nat) : Prop :=
  ∃ c value, l.threads[thread]? = some (c, .done value)

def Free (l : Leases σ Op Reply ρ C) : Prop :=
  ∃ resource : Nat, l.holders[resource]? = some none

/-- The thread holds a resource, or there is one that it can lease. -/
def Served (l : Leases σ Op Reply ρ C) (thread : Nat) : Prop :=
  l.Free ∨ ∃ resource : Nat, l.holders[resource]? = some (some thread)

theorem findIdx?_of_free {holders : List (Option Nat)} {resource : Nat} (free : holders[resource]? = some none) :
    ∃ first, holders.findIdx? Option.isNone = some first ∧ holders[first]? = some none := by
  have some : (holders.findIdx? Option.isNone).isSome := by
    rw [List.findIdx?_isSome, List.any_eq_true]
    exact ⟨none, List.mem_of_getElem? free, rfl⟩
  obtain ⟨first, found⟩ := Option.isSome_iff_exists.mp some
  exact ⟨first, found, free_of_findIdx? found⟩

variable (body answer) in
/-- A thread that is served goes on, unless it waits for a reply that nobody reads. -/
theorem Sound.moves (sound : l.Sound limit needs size) {thread : Nat} {c : C} {op : Leased Op}
    {next : Leased.Reply Reply op → LeasedProgram Op Reply ρ}
    (there : l.threads[thread]? = some (c, .request op next)) (served : l.Served thread)
    (read : ∀ resource r, op = .ask resource r → awaits r → l.busy.card < limit) :
    let after := (act body answer limit awaits (.run thread) l).2
    after.Served thread ∧ ∃ reply, after.threads = l.threads.set thread (c, next reply) := by
  obtain ⟨held, p', plays, holds⟩ := sound.plays thread c _ there
  cases plays with
  | lease next p rest =>
      have free : l.Free := served.resolve_right fun ⟨resource, held⟩ => by
        exact absurd ((holds resource).mp held) (by simp)
      obtain ⟨_, free⟩ := free
      obtain ⟨first, found, free⟩ := findIdx?_of_free free
      simp only [act, there, found]
      exact ⟨.inr ⟨first, List.getElem?_set_self (List.getElem?_eq_some_iff.mp free).1⟩, first, rfl⟩
  | ask held op next next' leased rest =>
      simp only [act, there, if_pos (read _ op rfl)]
      exact ⟨served, _, rfl⟩
  | giveBack resource next p rest =>
      simp only [act, there]
      refine ⟨.inl ⟨resource, ?_⟩, (), rfl⟩
      exact List.getElem?_set_self (List.getElem?_eq_some_iff.mp ((holds resource).mpr rfl)).1

variable (body answer limit awaits) in
/-- The thread alone comes to a state of this kind, and the other calls stay as they are. -/
def Comes (l : Leases σ Op Reply ρ C) (thread : Nat) (goal : Leases σ Op Reply ρ C → Prop) : Prop :=
  ∃ n, let after := final (act body answer limit awaits) l (List.replicate n (.run thread))
    goal after ∧ after.threads.length = l.threads.length ∧
      ∀ other, other ≠ thread → after.threads[other]? = l.threads[other]?

theorem comes_now {thread : Nat} {goal : Leases σ Op Reply ρ C → Prop} (reached : goal l) :
    l.Comes body answer limit awaits thread goal :=
  ⟨0, reached, rfl, fun _ _ => rfl⟩

theorem Comes.step {thread : Nat} {goal : Leases σ Op Reply ρ C → Prop} {t : C × LeasedProgram Op Reply ρ}
    (later : ((act body answer limit awaits (.run thread) l).2).Comes body answer limit awaits thread goal)
    (ran : (act body answer limit awaits (.run thread) l).2.threads = l.threads.set thread t) :
    l.Comes body answer limit awaits thread goal := by
  obtain ⟨n, reached, length, same⟩ := later
  rw [ran] at length same
  refine ⟨n + 1, reached, length.trans List.length_set, fun other here => ?_⟩
  exact (same other here).trans (List.getElem?_set_ne (Ne.symm here))

theorem Comes.mono {thread : Nat} {goal goal' : Leases σ Op Reply ρ C → Prop}
    (comes : l.Comes body answer limit awaits thread goal)
    (more : ∀ n, goal (final (act body answer limit awaits) l (List.replicate n (.run thread))) →
      goal' (final (act body answer limit awaits) l (List.replicate n (.run thread)))) :
    l.Comes body answer limit awaits thread goal' := by
  obtain ⟨n, reached, rest⟩ := comes
  exact ⟨n, more n reached, rest⟩

variable (body answer limit awaits) in
theorem run_threads (l : Leases σ Op Reply ρ C) (thread : Nat) : (act body answer limit awaits (.run thread) l).2 = l ∨
    l.isBusy thread = true ∧ ∃ t, (act body answer limit awaits (.run thread) l).2.threads = l.threads.set thread t := by
  rcases there : l.threads[thread]? with _ | ⟨c, _ | ⟨_ | ⟨resource, op⟩ | resource, next⟩⟩
  · exact .inl (by simp only [act, there])
  · exact .inl (by simp only [act, there])
  · cases found : l.holders.findIdx? Option.isNone with
    | none => exact .inl (by simp only [act, there, found])
    | some resource => exact .inr ⟨isBusy_of_request there, _, by simp only [act, there, found]; rfl⟩
  · by_cases read : awaits op → l.busy.card < limit
    · exact .inr ⟨isBusy_of_request there, _, by simp only [act, there, if_pos read]; rfl⟩
    · exact .inl (by simp only [act, there, if_neg read])
  · exact .inr ⟨isBusy_of_request there, _, by simp only [act, there]; rfl⟩

/-- No thread becomes busy but by a new call. -/
theorem busy_runs (schedule : List Nat) :
    (final (act body answer limit awaits) l (schedule.map .run)).busy ⊆ l.busy := by
  induction schedule using List.reverseRecOn with
  | nil => exact Finset.Subset.refl _
  | append_singleton schedule thread ih =>
      rw [List.map_append, List.map_singleton, final_concat]
      rcases run_threads body answer limit awaits (final (act body answer limit awaits) l (schedule.map .run)) thread
        with same | ⟨busy, t, ran⟩
      · rwa [same]
      · exact (busy_set busy ran).trans ih

/-! ## Calls come to their ends -/

variable (answer awaits) in
/-- A call that is served comes to its end, if replies are read or it does not wait for one. -/
theorem Sound.completes (sound : l.Sound limit needs size)
    (bodies : ∀ c s, ∃ p', Plays needs none (body c s) p') {thread : Nat} {c : C} {p : LeasedProgram Op Reply ρ}
    (there : l.threads[thread]? = some (c, p)) (served : l.Served thread)
    (read : l.busy.card < limit ∨ p.Avoids (Awaiting awaits)) :
    l.Comes body answer limit awaits thread fun after => after.Finished thread ∧ after.Free := by
  induction p generalizing l with
  | done value =>
      obtain ⟨held, p', plays, holds⟩ := sound.plays thread c _ there
      cases plays
      refine comes_now ⟨⟨c, value, there⟩, served.resolve_right ?_⟩
      rintro ⟨resource, held⟩
      exact absurd ((holds resource).mp held) (by simp)
  | request op next ih =>
      have goes (resource : Option Nat) (r : Op) (same : op = .ask resource r) (waits : awaits r) :
          l.busy.card < limit :=
        read.resolve_right fun avoids => avoids.1 ⟨resource, r, same, waits⟩
      obtain ⟨later, reply, ran⟩ := sound.moves body answer there served goes
      refine Comes.step (ih reply (sound.step bodies (acts ..)) ?_ later ?_) ran
      · rw [ran, List.getElem?_set_self (List.getElem?_eq_some_iff.mp there).1]
      · refine read.imp (fun room => ?_) fun avoids => avoids.2 reply
        exact Nat.lt_of_le_of_lt (Finset.card_le_card (busy_set (isBusy_of_request there) ran)) room

theorem Sound.run (sound : l.Sound limit needs size) (bodies : ∀ c s, ∃ p', Plays needs none (body c s) p')
    (actions : List (Action C)) : (final (act body answer limit awaits) l actions).Sound limit needs size :=
  final_rule _ (fun l : Leases σ Op Reply ρ C => l.Sound limit needs size) sound
    (fun _ a sound => sound.step bodies (acts body answer limit awaits a)) actions

theorem Sound.history (sound : l.Sound limit needs size) (bodies : ∀ c s, ∃ p', Plays needs none (body c s) p')
    (actions : List (Action C)) :
    ∀ m ∈ history (act body answer limit awaits) l actions, m.before.Proper needs m.output := by
  refine (history_rule (act body answer limit awaits) (fun h l => (∀ m ∈ h, m.before.Proper needs m.output) ∧
    l.Sound limit needs size) ⟨by simp, sound⟩ (fun past l a earlier => ?_) actions).1
  have acts := acts body answer limit awaits (l := l) a
  exact ⟨forall_mem_concat.mpr ⟨earlier.1, earlier.2.proper acts⟩, earlier.2.step bodies acts⟩

theorem Sound.busy_of_holds (sound : l.Sound limit needs size) {resource thread : Nat}
    (held : l.holders[resource]? = some (some thread)) : thread ∈ l.busy := by
  have within := sound.holders resource thread held
  obtain ⟨held', p', plays, holds⟩ := sound.plays thread _ _ (List.getElem?_eq_getElem within)
  cases (holds resource).mp held
  rw [mem_busy, isBusy_iff]
  refine ⟨_, _, List.getElem?_eq_getElem within, ?_⟩
  generalize (l.threads[thread]).2 = p at plays
  cases plays <;> rfl

theorem Sound.holds_one (sound : l.Sound limit needs size) {resource other thread : Nat}
    (held : l.holders[resource]? = some (some thread)) (held' : l.holders[other]? = some (some thread)) :
    resource = other := by
  have within := sound.holders resource thread held
  obtain ⟨_, _, _, holds⟩ := sound.plays thread _ _ (List.getElem?_eq_getElem within)
  exact Option.some.inj (((holds resource).mp held).symm.trans ((holds other).mp held'))

theorem Sound.held (sound : l.Sound limit needs size) (occupied : ¬ l.Free) {resource : Nat}
    (within : resource < size) : ∃ thread : Nat, l.holders[resource]? = some (some thread) := by
  rcases holder : l.holders[resource]? with _ | _ | thread
  · rw [List.getElem?_eq_none_iff, sound.size] at holder
    exact absurd within (Nat.not_lt.mpr holder)
  · exact absurd ⟨resource, holder⟩ occupied
  · exact ⟨thread, rfl⟩

/-- As long as there are as many resources as threads, a call finds one that is free. -/
theorem Sound.served (sound : l.Sound limit needs size) (enough : limit ≤ size) {thread : Nat}
    (busy : thread ∈ l.busy) : l.Served thread := by
  by_contra waiting
  obtain ⟨occupied, nothing⟩ := not_or.mp waiting
  have holder (resource : Nat) : ∃ other : Nat, resource < size → l.holders[resource]? = some (some other) := by
    by_cases within : resource < size
    · exact (sound.held occupied within).imp fun _ held _ => held
    · exact ⟨0, fun within' => absurd within' within⟩
  choose holder holds using holder
  have others : ∀ resource ∈ Finset.range size, holder resource ∈ l.busy.erase thread := by
    intro resource within
    have held := holds resource (Finset.mem_range.mp within)
    refine Finset.mem_erase.mpr ⟨fun same => nothing ⟨resource, same ▸ held⟩, sound.busy_of_holds held⟩
  have apart : Set.InjOn holder (Finset.range size) := by
    intro resource within other within' same
    have held := holds resource (by simpa using within)
    have held' := holds other (by simpa using within')
    exact sound.holds_one held (same ▸ held')
  have few := Finset.card_le_card_of_injOn holder others apart
  rw [Finset.card_range, Finset.card_erase_of_mem busy] at few
  have some : 0 < l.busy.card := Finset.card_pos.mpr ⟨thread, busy⟩
  have bound := sound.busy
  omega

variable (answer) in
/-- With a resource for every thread each call ends by its own steps, if its replies are read. -/
theorem Sound.finishes (sound : l.Sound limit needs size)
    (bodies : ∀ c s, ∃ p', Plays needs none (body c s) p') (enough : limit ≤ size) {thread : Nat} {c : C}
    {p : LeasedProgram Op Reply ρ} (there : l.threads[thread]? = some (c, p))
    (read : l.busy.card < limit ∨ p.Avoids (Awaiting awaits)) :
    l.Comes body answer limit awaits thread (·.Finished thread) := by
  cases p with
  | done value => exact comes_now ⟨c, value, there⟩
  | request op next =>
      have busy : thread ∈ l.busy := mem_busy.mpr (isBusy_of_request there)
      exact (sound.completes answer awaits bodies there (sound.served enough busy) read).mono fun _ reached => reached.1

theorem Sound.free_or_held (sound : l.Sound limit needs size) (positive : 0 < size) :
    l.Free ∨ ∃ thread resource : Nat, l.holders[resource]? = some (some thread) := by
  by_cases free : l.Free
  · exact .inl free
  · obtain ⟨thread, held⟩ := sound.held free positive
    exact .inr ⟨thread, 0, held⟩

variable (body answer limit awaits) in
/-- Every thread is brought to its goal, one after the other. -/
theorem visits (stays : Leases σ Op Reply ρ C → Prop) (goal : Leases σ Op Reply ρ C → Nat → Prop) (now : stays l)
    (each : ∀ l thread, stays l → thread < l.threads.length →
      l.Comes body answer limit awaits thread fun after => goal after thread ∧ stays after)
    (kept : ∀ l after thread, after.threads[thread]? = l.threads[thread]? → goal l thread → goal after thread) :
    ∃ schedule : List Nat, let after := final (act body answer limit awaits) l (schedule.map .run)
      stays after ∧ after.threads.length = l.threads.length ∧ ∀ thread < l.threads.length, goal after thread := by
  have first (k : Nat) (within : k ≤ l.threads.length) : ∃ schedule : List Nat,
      let after := final (act body answer limit awaits) l (schedule.map .run)
      stays after ∧ after.threads.length = l.threads.length ∧ ∀ thread < k, goal after thread := by
    induction k with
    | zero => exact ⟨[], now, rfl, by simp⟩
    | succ k ih =>
        obtain ⟨schedule, stay, length, reached⟩ := ih (Nat.le_of_succ_le within)
        obtain ⟨n, ⟨last, stay'⟩, length', same⟩ := each _ k stay (length.symm ▸ within)
        refine ⟨schedule ++ List.replicate n k, ?_⟩
        rw [List.map_append, List.map_replicate, final_append]
        refine ⟨stay', length'.trans length, fun thread earlier => ?_⟩
        rcases Nat.lt_succ_iff_lt_or_eq.mp earlier with earlier | rfl
        · exact kept _ _ thread (same thread (Nat.ne_of_lt earlier)) (reached thread earlier)
        · exact last
  exact first _ (Nat.le_refl _)

variable (body answer limit awaits size) in
/-- All calls can be brought to their ends, and the resources are free then. -/
def Finishable (l : Leases σ Op Reply ρ C) : Prop :=
  ∃ schedule : List Nat, let after := final (act body answer limit awaits) l (schedule.map .run)
    after.busy = ∅ ∧ ∀ resource < size, after.holders[resource]? = some none

theorem Finishable.later (schedule : List Nat)
    (finishable : (final (act body answer limit awaits) l (schedule.map .run)).Finishable body answer limit awaits size) :
    l.Finishable body answer limit awaits size := by
  obtain ⟨rest, ended⟩ := finishable
  rw [← final_append, ← List.map_append] at ended
  exact ⟨_, ended⟩

theorem not_busy_of_finished {thread : Nat} (finished : l.Finished thread) : thread ∉ l.busy := by
  intro busy
  obtain ⟨c, p, there, unfinished⟩ := isBusy_iff.mp (mem_busy.mp busy)
  obtain ⟨c', value, done⟩ := finished
  cases there.symm.trans done
  contradiction

theorem lt_of_busy {thread : Nat} (busy : thread ∈ l.busy) : thread < l.threads.length := by
  obtain ⟨c, p, there, _⟩ := isBusy_iff.mp (mem_busy.mp busy)
  exact (List.getElem?_eq_some_iff.mp there).1

/-- There is no deadlock while a thread is free. -/
theorem Sound.all_finish (sound : l.Sound limit needs size)
    (bodies : ∀ c s, ∃ p', Plays needs none (body c s) p') (positive : 0 < size) (room : l.busy.card < limit) :
    l.Finishable body answer limit awaits size := by
  have roomy {l : Leases σ Op Reply ρ C} (room : l.busy.card < limit) (schedule : List Nat) :
      (final (act body answer limit awaits) l (schedule.map .run)).busy.card < limit :=
    Nat.lt_of_le_of_lt (Finset.card_le_card (busy_runs schedule)) room
  have first : ∃ schedule : List Nat, (final (act body answer limit awaits) l (schedule.map .run)).Free := by
    rcases sound.free_or_held positive with free | ⟨thread, resource, held⟩
    · exact ⟨[], free⟩
    · have there := List.getElem?_eq_getElem (sound.holders resource thread held)
      obtain ⟨n, ⟨_, free⟩, _⟩ :=
        sound.completes answer awaits bodies there (.inr ⟨resource, held⟩) (.inl room)
      exact ⟨List.replicate n thread, by rwa [List.map_replicate]⟩
  obtain ⟨schedule, free⟩ := first
  refine Finishable.later schedule ?_
  have each (l : Leases σ Op Reply ρ C) (thread : Nat)
      (stays : l.Sound limit needs size ∧ l.Free ∧ l.busy.card < limit) (within : thread < l.threads.length) :
      l.Comes body answer limit awaits thread fun after =>
        after.Finished thread ∧ after.Sound limit needs size ∧ after.Free ∧ after.busy.card < limit := by
    obtain ⟨sound, free, room⟩ := stays
    refine (sound.completes answer awaits bodies (List.getElem?_eq_getElem within) (.inl free) (.inl room)).mono
      fun n reached => ⟨reached.1, sound.run bodies _, reached.2, ?_⟩
    rw [← List.map_replicate]
    exact roomy room _
  obtain ⟨rest, ⟨sound', _, _⟩, length, finished⟩ := visits body answer limit awaits _ Finished
    ⟨sound.run bodies (schedule.map .run), free, roomy room schedule⟩ each fun _ _ _ same ⟨c, value, done⟩ =>
      ⟨c, value, same.trans done⟩
  refine ⟨rest, Finset.eq_empty_of_forall_notMem fun thread busy => ?_, fun resource within => ?_⟩
  · exact not_busy_of_finished (finished thread (length ▸ lt_of_busy busy)) busy
  · generalize final (act body answer limit awaits) _ (rest.map .run) = ended at *
    rcases holder : ended.holders[resource]? with _ | _ | thread
    · rw [List.getElem?_eq_none_iff, sound'.size] at holder
      exact absurd within (Nat.not_lt.mpr holder)
    · rfl
    · have busy := sound'.busy_of_holds holder
      exact absurd busy (not_busy_of_finished (finished thread (length ▸ lt_of_busy busy)))

/-- Nor while a call is at work that waits for no reply. -/
theorem Sound.all_finish_after (sound : l.Sound limit needs size)
    (bodies : ∀ c s, ∃ p', Plays needs none (body c s) p') (positive : 0 < size) (enough : limit ≤ size) {thread : Nat}
    {c : C} {p : LeasedProgram Op Reply ρ} (there : l.threads[thread]? = some (c, p)) (busy : thread ∈ l.busy)
    (avoids : p.Avoids (Awaiting awaits)) : l.Finishable body answer limit awaits size := by
  obtain ⟨n, finished, _⟩ := sound.finishes answer bodies enough there (.inr avoids)
  rw [← List.map_replicate] at finished
  refine Finishable.later (List.replicate n thread) ((sound.run bodies _).all_finish bodies positive ?_)
  have fewer : (final (act body answer limit awaits) l ((List.replicate n thread).map .run)).busy ⊆ l.busy.erase thread := by
    intro other later
    refine Finset.mem_erase.mpr ⟨?_, busy_runs _ later⟩
    rintro rfl
    exact not_busy_of_finished finished later
  calc _ ≤ (l.busy.erase thread).card := Finset.card_le_card fewer
    _ < l.busy.card := Finset.card_erase_lt_of_mem busy
    _ ≤ limit := sound.busy

/-! ## Standstill -/

def isWaiting (awaits : Op → Bool) (l : Leases σ Op Reply ρ C) (thread : Nat) : Bool :=
  match l.threads[thread]? with
  | some (_, .request (.ask _ op) _) => awaits op
  | _ => false

variable (limit awaits) in
/-- Every thread handles a call that waits for a reply. -/
structure Standstill (l : Leases σ Op Reply ρ C) : Prop where
  occupied : ¬ l.busy.card < limit
  waiting : ∀ thread ∈ l.busy, l.isWaiting awaits thread

theorem Standstill.idle (standstill : l.Standstill limit awaits) (a : Action C) :
    (act body answer limit awaits a l).2 = l := by
  obtain ⟨occupied, waiting⟩ := standstill
  cases a with
  | call c => simp only [act, if_neg occupied]
  | run thread =>
      rcases there : l.threads[thread]? with _ | ⟨c, value | ⟨op, next⟩⟩
      · simp only [act, there]
      · simp only [act, there]
      · have waits := waiting thread (mem_busy.mpr (isBusy_of_request there))
        rw [isWaiting, there] at waits
        cases op with
        | ask resource r => simp only [act, there, if_neg fun read : awaits r → _ => occupied (read waits)]
        | lease => contradiction
        | giveBack resource => contradiction

theorem Standstill.forever (standstill : l.Standstill limit awaits) (actions : List (Action C)) :
    final (act body answer limit awaits) l actions = l :=
  final_rule _ (· = l) rfl (fun _ a same => by rw [same, standstill.idle]) actions

theorem Sound.settles (sound : l.Sound limit needs size)
    (bodies : ∀ c s, ∃ p', Plays needs none (body c s) p') (enough : limit ≤ size) {thread : Nat} {c : C}
    {p : LeasedProgram Op Reply ρ} (there : l.threads[thread]? = some (c, p)) :
    l.Comes body answer limit awaits thread fun after => after.Finished thread ∨ after.isWaiting awaits thread := by
  induction p generalizing l with
  | done value => exact comes_now (.inl ⟨c, value, there⟩)
  | request op next ih =>
      by_cases waits : l.isWaiting awaits thread
      · exact comes_now (.inr waits)
      have served := sound.served enough (mem_busy.mpr (isBusy_of_request there))
      have goes (resource : Option Nat) (r : Op) (same : op = .ask resource r) (await : awaits r) :
          l.busy.card < limit := by
        subst same
        exact absurd (by rw [isWaiting, there]; exact await) waits
      obtain ⟨_, reply, ran⟩ := sound.moves body answer there served goes
      refine Comes.step (ih reply (sound.step bodies (acts ..)) ?_) ran
      rw [ran, List.getElem?_set_self (List.getElem?_eq_some_iff.mp there).1]

/-- Either all calls can be brought to their ends or the pool to a standstill. -/
theorem Sound.finish_or_standstill (sound : l.Sound limit needs size)
    (bodies : ∀ c s, ∃ p', Plays needs none (body c s) p') (positive : 0 < size) (enough : limit ≤ size) :
    l.Finishable body answer limit awaits size ∨ ∃ schedule : List Nat,
      (final (act body answer limit awaits) l (schedule.map .run)).Standstill limit awaits := by
  obtain ⟨schedule, sound', length, settled⟩ := visits body answer limit awaits (fun l => l.Sound limit needs size)
    (fun l thread => l.Finished thread ∨ l.isWaiting awaits thread) sound
    (fun l thread sound within => (sound.settles bodies enough (List.getElem?_eq_getElem within)).mono
      fun n reached => ⟨reached, sound.run bodies _⟩)
    (fun l after thread same => by simp only [Finished, isWaiting, same]; exact id)
  by_cases room : (final (act body answer limit awaits) l (schedule.map .run)).busy.card < limit
  · exact .inl (Finishable.later schedule (sound'.all_finish bodies positive room))
  · refine .inr ⟨schedule, room, fun thread busy => ?_⟩
    exact (settled thread (length ▸ lt_of_busy busy)).resolve_left fun finished => not_busy_of_finished finished busy

/-! ## Calls that wait for no reply -/

/-- The calls of this kind have no request left whose reply they have to wait for. -/
def Quiet (awaits : Op → Bool) (quiet : C → Prop) (l : Leases σ Op Reply ρ C) : Prop :=
  ∀ (thread : Nat) c p, l.threads[thread]? = some (c, p) → quiet c → p.Avoids (Awaiting awaits)

theorem Quiet.run {quiet : C → Prop} (now : l.Quiet awaits quiet)
    (bodies : ∀ c s, quiet c → (body c s).Avoids (Awaiting awaits)) (actions : List (Action C)) :
    (final (act body answer limit awaits) l actions).Quiet awaits quiet := by
  refine final_rule _ (fun l : Leases σ Op Reply ρ C => l.Quiet awaits quiet) now (fun l a now => ?_) actions
  have set {after : Leases σ Op Reply ρ C} {thread : Nat} {c : C} {op : Leased Op}
      {next : Leased.Reply Reply op → LeasedProgram Op Reply ρ} {reply : Leased.Reply Reply op}
      (there : l.threads[thread]? = some (c, .request op next))
      (ran : after.threads = l.threads.set thread (c, next reply)) : after.Quiet awaits quiet := by
    intro other c' q found chosen
    by_cases here : thread = other
    · subst here
      rw [ran, List.getElem?_set_self (List.getElem?_eq_some_iff.mp there).1, Option.some.injEq, Prod.mk.injEq] at found
      obtain ⟨rfl, rfl⟩ := found
      exact (now thread c _ there chosen).2 reply
    · rw [ran, List.getElem?_set_ne here] at found
      exact now other c' q found chosen
  have acted := acts body answer limit awaits (l := l) a
  generalize act body answer limit awaits a l = done at acted
  rcases done with ⟨output, after⟩
  cases acted with
  | idle => exact now
  | called c room =>
      intro thread c' q found chosen
      rw [List.getElem?_append] at found
      split at found
      · exact now thread c' q found chosen
      · obtain ⟨rfl, rfl⟩ : c = c' ∧ body c l.shared = q := by
          rw [List.getElem?_singleton] at found
          split at found
          · simpa using found
          · contradiction
        exact bodies c l.shared chosen
  | leased thread c next resource there free => exact set there rfl
  | asked thread c resource op next there read => exact set there rfl
  | gaveBack thread c resource next there => exact set there rfl

end
end Leases
end SecureChat.Library
