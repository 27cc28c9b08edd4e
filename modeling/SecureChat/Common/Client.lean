import Mathlib.Algebra.Order.BigOperators.Group.List
import Mathlib.Algebra.Order.Ring.Nat
import SecureChat.Common.Shutdown

/-!
# The objects of the client

The `try` block of `client.cpp` constructs a refresher, two watchers and a plugin manager with a
watcher of its own, and destroys them in the reverse order, also if the manager throws. The threads
of the watchers run in between and call back into these objects. A plugin that fails to load ends
its thread with an exception, which the destructor of the watcher would throw again.
-/

namespace SecureChat
open Library

inductive Watcher where
  | ui
  | demo
  | plugins
  deriving DecidableEq

inductive ClientObject where
  | refresher
  | manager
  | watcher (w : Watcher)
  deriving DecidableEq

/-- The object that the callback of the watcher is bound to. -/
def Watcher.callback : Watcher → Option ClientObject
  | .ui => some .refresher
  | .demo => none
  | .plugins => some .manager

/-- The objects still to be constructed, the constructed ones with the last one first, and the
threads that have left with an exception. -/
structure Client where
  todo : List ClientObject
  stack : List ClientObject
  watchers : Watcher → Shutdown
  failed : Watcher → Bool
  terminated : Bool

def Shutdown.Label.isDestructor : Shutdown.Label → Bool
  | .clearRunning | .notify | .waitForFinished => true
  | _ => false

namespace Client

def plan : List ClientObject :=
  [.refresher, .watcher .ui, .watcher .demo, .manager, .watcher .plugins]

def start : Client := ⟨plan, [], fun _ => Shutdown.start, fun _ => false, false⟩

def setWatcher (c : Client) (w : Watcher) (s : Shutdown) : Client :=
  { c with watchers := Function.update c.watchers w s }

inductive Label where
  | construct
  | throw
  | destruct
  | thread (w : Watcher) (label : Shutdown.Label)

/-- The manager throws before it has its watcher. The manager is destroyed after its watcher. -/
inductive Move (c : Client) : Label → Client → Prop
  | construct (o : ClientObject) (rest : List ClientObject) (todo : c.todo = o :: rest) :
      Move c .construct { c with todo := rest, stack := o :: c.stack }
  | throw (rest : List ClientObject) (todo : c.todo = .manager :: rest) : Move c .throw { c with todo := [] }
  | destroy (o : ClientObject) (rest : List ClientObject) (todo : c.todo = []) (top : c.stack = o :: rest)
      (gone : ∀ w, o = .watcher w → (c.watchers w).destructor = .returned) :
      Move c .destruct { c with stack := rest }
  | destructor (w : Watcher) (rest : List ClientObject) (label : Shutdown.Label) (s : Shutdown) (todo : c.todo = [])
      (top : c.stack = .watcher w :: rest) (main : label.isDestructor = true)
      (step : Shutdown.Step (c.watchers w) label s)
      (good : label = .waitForFinished → c.failed w = false) :
      Move c .destruct (c.setWatcher w s)
  | terminate (w : Watcher) (rest : List ClientObject) (s : Shutdown) (todo : c.todo = [])
      (top : c.stack = .watcher w :: rest) (step : Shutdown.Step (c.watchers w) .waitForFinished s)
      (thrown : c.failed w = true) : Move c .destruct { c with terminated := true }
  | thread (w : Watcher) (label : Shutdown.Label) (s : Shutdown) (there : .watcher w ∈ c.stack)
      (other : label.isDestructor = false) (step : Shutdown.Step (c.watchers w) label s) :
      Move c (.thread w label) (c.setWatcher w s)
  | fail (events : List InotifyEvent) (there : .watcher .plugins ∈ c.stack)
      (handling : (c.watchers .plugins).thread = .handling events) :
      Move c (.thread .plugins .throw) { c.setWatcher .plugins { c.watchers .plugins with thread := .finished } with
        failed := Function.update c.failed .plugins true }

def Step (c : Client) (label : Label) (after : Client) : Prop :=
  c.terminated = false ∧ Move c label after

abbrev Runs : List Label → Client → Prop := Reaches Step Client.start

/-- `main` has left its `try` block, or the program was terminated in it. -/
def Ended (c : Client) : Prop :=
  c.terminated = true ∨ c.todo = [] ∧ c.stack = []

end Client

/-! ## One watcher -/

namespace Shutdown

structure Sane (s : Shutdown) : Prop where
  running : s.destructor ≠ .notCalled → s.running = false
  pipe : s.destructor = .waiting → 0 < s.pipe
  returned : s.destructor = .returned → s.thread = .finished
  queued : ∀ pipeSet, s.thread = .selected pipeSet true → s.queue ≠ []

theorem sane_start : Shutdown.start.Sane := by
  constructor <;> simp [Shutdown.start]

theorem Sane.step {s after : Shutdown} {label : Label} (sane : s.Sane) (step : Step s label after) : after.Sane := by
  obtain ⟨running, pipe, returned, queued⟩ := sane
  cases step with
  | arrive event =>
      refine ⟨running, pipe, returned, fun pipeSet selected => ?_⟩
      dsimp only
      split
      · simp
      · exact queued pipeSet selected
  | _ => constructor <;> simp_all

def threadWork : ThreadState → Nat
  | .finished => 0
  | .stopping => 1
  | .testing | .selected true _ => 2
  | .selecting | .handling _ | .notStarted => 3
  | .selected false _ => 4

/-- The steps until the watcher has been destroyed, as far as they are the destructor's or those
that it waits for. -/
def work (s : Shutdown) : Nat :=
  match s.destructor with
  | .notCalled => 8
  | .cleared => 7
  | .waiting => 2 + threadWork s.thread
  | .returned => 1

theorem threadWork_le (t : ThreadState) : threadWork t ≤ 4 := by
  unfold threadWork
  split <;> omega

theorem work_bounds (s : Shutdown) : 0 < s.work ∧ s.work ≤ 8 := by
  have bound := threadWork_le s.thread
  unfold work
  split <;> omega

theorem Sane.work_le {s after : Shutdown} {label : Label} (sane : s.Sane) (step : Step s label after) :
    after.work ≤ s.work ∧ (label.isDestructor = true → after.work < s.work) := by
  obtain ⟨running, pipe, returned, queued⟩ := sane
  have bound := threadWork_le s.thread
  cases step with
  | arrive event => exact ⟨Nat.le_refl _, by simp [Label.isDestructor]⟩
  | clearRunning notCalled => simp [work, notCalled]
  | notify cleared =>
      simp only [work, cleared]
      omega
  | waitForFinished waiting finished => simp [work, waiting, finished, threadWork]
  | _ =>
      refine ⟨?_, by simp [Label.isDestructor]⟩
      cases called : s.destructor <;> simp_all [work, threadWork]

/-- While the destructor waits, the thread can go on. -/
theorem Sane.thread_goes_on {s : Shutdown} (sane : s.Sane) (waiting : s.destructor = .waiting)
    (unfinished : s.thread ≠ .finished) :
    ∃ label after, label.isDestructor = false ∧ Step s label after ∧ after.work < s.work := by
  have stopped := sane.running (by simp [waiting])
  have written := sane.pipe waiting
  cases thread : s.thread with
  | notStarted => exact ⟨_, _, rfl, .start s thread, by simp [work, waiting, thread, threadWork]⟩
  | testing => exact ⟨_, _, rfl, .testFalse s thread stopped, by simp [work, waiting, thread, threadWork]⟩
  | selecting =>
      exact ⟨_, _, rfl, .select s thread (.inl written), by simp [work, waiting, thread, threadWork, written]⟩
  | selected pipeSet fdSet =>
      cases pipeSet with
      | true => exact ⟨_, _, rfl, .stop s fdSet thread, by simp [work, waiting, thread, threadWork]⟩
      | false =>
          cases fdSet with
          | false => exact ⟨_, _, rfl, .unexpectedFd s thread, by simp [work, waiting, thread, threadWork]⟩
          | true =>
              refine ⟨_, _, rfl, .read s s.queue [] thread (sane.queued false thread) (by simp), ?_⟩
              simp [work, waiting, thread, threadWork]
  | handling events => exact ⟨_, _, rfl, .handle s events thread, by simp [work, waiting, thread, threadWork]⟩
  | stopping => exact ⟨_, _, rfl, .cleanup s thread, by simp [work, waiting, thread, threadWork]⟩
  | finished => contradiction

end Shutdown
/-! ## All objects -/

namespace Client

/-- The object that a watcher calls back has been constructed before it. -/
def Ordered (objects : List ClientObject) : Prop :=
  ∀ above w below, objects = above ++ .watcher w :: below → ∀ o, w.callback = some o → o ∈ below

theorem Ordered.of_append {first rest : List ClientObject} (ordered : Ordered (first ++ rest)) : Ordered rest :=
  fun above w below split => ordered (first ++ above) w below (by simp [split])

theorem ordered_cons {o : ClientObject} {rest : List ClientObject} (ordered : Ordered rest)
    (called : ∀ w, o = .watcher w → ∀ target, w.callback = some target → target ∈ rest) : Ordered (o :: rest) := by
  intro above w below split
  rcases List.cons_eq_append_iff.mp split with ⟨rfl, same⟩ | ⟨above, rfl, same⟩
  · cases same
    exact called w rfl
  · exact ordered above w below same

theorem ordered_plan : Ordered plan.reverse := by
  have empty : Ordered [] := fun above w below split => by simp at split
  refine ordered_cons (ordered_cons (ordered_cons (ordered_cons (ordered_cons empty ?_) ?_) ?_) ?_) ?_ <;>
    rintro w ⟨⟩ target ⟨⟩ <;> decide

structure Sane (c : Client) : Prop where
  ordered : Ordered (c.todo.reverse ++ c.stack)
  watchers : ∀ w, (c.watchers w).Sane
  idle : ∀ w, .watcher w ∉ c.stack → (c.watchers w).thread = .notStarted ∨ (c.watchers w).thread = .finished

theorem sane_start : Client.start.Sane where
  ordered := by simpa [Client.start] using ordered_plan
  watchers _ := Shutdown.sane_start
  idle _ _ := .inl rfl

section
variable {c after : Client} {label : Label}

theorem Sane.setWatcher (sane : c.Sane) {w : Watcher} (there : .watcher w ∈ c.stack) {s : Shutdown} (safe : s.Sane) :
    (c.setWatcher w s).Sane where
  ordered := sane.ordered
  watchers other := by
    by_cases here : other = w
    · subst here
      simpa [Client.setWatcher] using safe
    · simpa [Client.setWatcher, here] using sane.watchers other
  idle other absent := by
    have here : other ≠ w := fun same => absent (same ▸ there)
    simpa [Client.setWatcher, here] using sane.idle other absent

theorem Sane.move (sane : c.Sane) (move : Move c label after) : after.Sane := by
  cases move with
  | construct o rest todo =>
      refine ⟨by simpa [todo] using sane.ordered, sane.watchers, fun w absent => ?_⟩
      exact sane.idle w fun member => absent (List.mem_cons_of_mem _ member)
  | throw rest todo => exact ⟨sane.ordered.of_append, sane.watchers, sane.idle⟩
  | destroy o rest todo top gone =>
      have ordered : Ordered ([o] ++ rest) := by simpa [todo, top] using sane.ordered
      refine ⟨by simpa [todo] using ordered.of_append, sane.watchers, fun w absent => ?_⟩
      by_cases here : o = .watcher w
      · exact .inr ((sane.watchers w).returned (gone w here))
      · refine sane.idle w fun member => ?_
        rw [top] at member
        rcases List.mem_cons.mp member with same | member
        · exact here same.symm
        · exact absent member
  | destructor w rest label s todo top main step good =>
      exact sane.setWatcher (top ▸ List.mem_cons_self) ((sane.watchers w).step step)
  | terminate w rest s todo top step thrown => exact ⟨sane.ordered, sane.watchers, sane.idle⟩
  | thread w label s there other step => exact sane.setWatcher there ((sane.watchers w).step step)
  | fail events there handling =>
      obtain ⟨running, pipe, returned, queued⟩ := sane.watchers .plugins
      have safe := sane.setWatcher there (s := { c.watchers .plugins with thread := .finished })
        ⟨running, pipe, fun _ => rfl, by simp⟩
      exact ⟨safe.ordered, safe.watchers, safe.idle⟩

def objectWork (watchers : Watcher → Shutdown) : ClientObject → Nat
  | .watcher w => (watchers w).work
  | _ => 1

/-- The steps that `main` and the threads it waits for have still to take. -/
def work (c : Client) : Nat :=
  if c.terminated then 0 else 9 * c.todo.length + (c.stack.map (objectWork c.watchers)).sum

theorem objectWork_bounds (watchers : Watcher → Shutdown) (o : ClientObject) :
    0 < objectWork watchers o ∧ objectWork watchers o ≤ 8 := by
  cases o with
  | watcher w => exact (watchers w).work_bounds
  | _ => simp [objectWork]

theorem objectWork_update {watchers : Watcher → Shutdown} {w : Watcher} {s : Shutdown}
    (less : s.work ≤ (watchers w).work) (o : ClientObject) :
    objectWork (Function.update watchers w s) o ≤ objectWork watchers o := by
  cases o with
  | watcher other =>
      by_cases here : other = w
      · subst here
        simpa [objectWork] using less
      · simp [objectWork, here]
  | _ => exact Nat.le_refl _

theorem setWatcher_work {w : Watcher} {s : Shutdown} (less : s.work ≤ (c.watchers w).work) :
    (c.setWatcher w s).work ≤ c.work := by
  have stack : (c.stack.map (objectWork (Function.update c.watchers w s))).sum ≤
      (c.stack.map (objectWork c.watchers)).sum :=
    List.sum_le_sum fun o _ => objectWork_update less o
  cases terminated : c.terminated <;> simp [work, Client.setWatcher, terminated, stack]

theorem setWatcher_work_lt (running : c.terminated = false) {w : Watcher} (there : .watcher w ∈ c.stack)
    {s : Shutdown} (less : s.work < (c.watchers w).work) : (c.setWatcher w s).work < c.work := by
  have stack : (c.stack.map (objectWork (Function.update c.watchers w s))).sum <
      (c.stack.map (objectWork c.watchers)).sum := by
    refine List.sum_lt_sum _ _ (fun o _ => objectWork_update (Nat.le_of_lt less) o) ⟨_, there, ?_⟩
    simpa [objectWork] using less
  simp only [work, Client.setWatcher, running]
  simpa using stack

/-- No step adds to the work, and a step of `main` does some. -/
theorem Sane.work_le (sane : c.Sane) (running : c.terminated = false) (move : Move c label after) :
    after.work ≤ c.work := by
  cases move with
  | construct o rest todo =>
      have bound := (objectWork_bounds c.watchers o).2
      simp only [work, running, todo, List.length_cons, List.map_cons, List.sum_cons]
      simp
      omega
  | throw rest todo =>
      simp [work, running, todo]
  | destroy o rest todo top gone => simp [work, running, todo, top]
  | destructor w rest label s todo top main step good => exact setWatcher_work ((sane.watchers w).work_le step).1
  | terminate w rest s todo top step thrown => simp [work]
  | thread w label s there other step => exact setWatcher_work ((sane.watchers w).work_le step).1
  | fail events there handling =>
      have less : { c.watchers .plugins with thread := .finished : Shutdown }.work ≤ (c.watchers .plugins).work := by
        cases called : (c.watchers .plugins).destructor <;> simp [Shutdown.work, called, Shutdown.threadWork]
      exact setWatcher_work less

/-- As long as `main` has not ended, it or a thread that it waits for can take a step. -/
theorem Sane.goes_on (sane : c.Sane) (unfinished : ¬ c.Ended) :
    ∃ label after, Step c label after ∧ after.work < c.work := by
  have running : c.terminated = false := by
    by_contra terminated
    exact unfinished (.inl (by simpa using terminated))
  cases todo : c.todo with
  | cons o rest =>
      refine ⟨.construct, _, ⟨running, .construct o rest todo⟩, ?_⟩
      have bound := (objectWork_bounds c.watchers o).2
      simp [work, running, todo]
      omega
  | nil =>
      cases top : c.stack with
      | nil => exact absurd (.inr ⟨todo, top⟩) unfinished
      | cons o rest =>
          have destroyed (gone : ∀ w, o = .watcher w → (c.watchers w).destructor = .returned) :
              ∃ label after, Step c label after ∧ after.work < c.work := by
            refine ⟨.destruct, _, ⟨running, .destroy o rest todo top gone⟩, ?_⟩
            have bound := (objectWork_bounds c.watchers o).1
            simp [work, running, todo, top]
            omega
          cases o with
          | watcher w =>
              have there : .watcher w ∈ c.stack := top ▸ List.mem_cons_self
              have main {label : Shutdown.Label} {s : Shutdown} (main : label.isDestructor = true)
                  (step : Shutdown.Step (c.watchers w) label s)
                  (good : label = .waitForFinished → c.failed w = false) :
                  ∃ label after, Step c label after ∧ after.work < c.work :=
                ⟨.destruct, _, ⟨running, .destructor w rest label s todo top main step good⟩,
                  setWatcher_work_lt running there (((sane.watchers w).work_le step).2 main)⟩
              cases called : (c.watchers w).destructor with
              | notCalled => exact main rfl (.clearRunning _ called) (by simp)
              | cleared => exact main rfl (.notify _ called) (by simp)
              | returned => exact destroyed fun other same => by cases same; exact called
              | waiting =>
                  by_cases finished : (c.watchers w).thread = .finished
                  · cases thrown : c.failed w with
                    | false => exact main rfl (.waitForFinished _ called finished) fun _ => thrown
                    | true =>
                        refine ⟨.destruct, _,
                          ⟨running, .terminate w rest _ todo top (.waitForFinished _ called finished) thrown⟩, ?_⟩
                        have bound := (objectWork_bounds c.watchers (.watcher w)).1
                        simp [work, running, todo, top]
                        omega
                  · obtain ⟨label, s, other, step, less⟩ := (sane.watchers w).thread_goes_on called finished
                    exact ⟨_, _, ⟨running, .thread w label s there other step⟩, setWatcher_work_lt running there less⟩
          | _ => exact destroyed (by simp)

theorem Sane.of_run {labels : List Label} (run : Runs labels c) : c.Sane :=
  run.rule (fun _ c => c.Sane) sane_start fun _ _ _ _ sane step => sane.move step.2

/-- A watcher that handles events is there, with the object that it calls back, and `main` comes to its
end with the steps of its own and of the threads that it waits for. -/
theorem callbacks_alive {labels : List Label} (run : Runs labels c) :
    (∀ w events, (c.watchers w).thread = .handling events →
      .watcher w ∈ c.stack ∧ ∀ o, w.callback = some o → o ∈ c.stack) ∧
    (c.stack = [] → ∀ w, (c.watchers w).thread = .notStarted ∨ (c.watchers w).thread = .finished) ∧
    (c.Ended ∨ ∃ label after, Step c label after ∧ after.work < c.work) ∧
    ∀ label after, Step c label after → after.work ≤ c.work := by
  have sane := Sane.of_run run
  refine ⟨fun w events handling => ?_, fun empty w => sane.idle w (by simp [empty]), ?_,
    fun label after step => sane.work_le step.1 step.2⟩
  · have there : .watcher w ∈ c.stack := by
      by_contra absent
      rcases sane.idle w absent with idle | idle <;> simp [handling] at idle
    obtain ⟨above, below, split⟩ := List.append_of_mem there
    have ordered : Ordered c.stack := sane.ordered.of_append
    exact ⟨there, fun o bound => by simp [split, ordered above w below split o bound]⟩
  · by_cases ended : c.Ended
    · exact .inl ended
    · exact .inr (sane.goes_on ended)

end

/-- A run of the thread of a watcher, while nothing else happens. -/
theorem thread_runs {c : Client} {labels : List Label} (run : Runs labels c) (running : c.terminated = false)
    {w : Watcher} (there : .watcher w ∈ c.stack) {steps : List Shutdown.Label} {s : Shutdown}
    (ran : Reaches Shutdown.Step (c.watchers w) steps s) (others : ∀ label ∈ steps, label.isDestructor = false) :
    Runs (labels ++ steps.map (.thread w)) (c.setWatcher w s) := by
  induction ran with
  | start => simpa [setWatcher] using run
  | step ran taken ih =>
      obtain ⟨earlier, last⟩ := forall_mem_concat.mp others
      have next := Reaches.step (ih earlier) ⟨running, .thread w _ _ there last (by simpa [setWatcher] using taken)⟩
      simpa [setWatcher] using next

/-- The manager's watcher handles an event while the others wait. -/
theorem callbacks_alive_reloading :
    let event : InotifyEvent := ⟨IN_MODIFY, 16, lit "a.so", by decide⟩
    let handling : Shutdown := ⟨true, 0, [], .handling [event], .notCalled, []⟩
    let c : Client := { Client.start with
      todo := [], stack := plan.reverse, watchers := Function.update Client.start.watchers .plugins handling }
    (∀ w events, (c.watchers w).thread = .handling events →
      .watcher w ∈ c.stack ∧ ∀ o, w.callback = some o → o ∈ c.stack) ∧
    (c.stack = [] → ∀ w, (c.watchers w).thread = .notStarted ∨ (c.watchers w).thread = .finished) ∧
    (c.Ended ∨ ∃ label after, Step c label after ∧ after.work < c.work) ∧
    ∀ label after, Step c label after → after.work ≤ c.work := by
  intro event handling c
  have constructed : Runs (List.replicate 5 .construct) { Client.start with todo := [], stack := plan.reverse } :=
    .step (.step (.step (.step (.step .start ⟨rfl, .construct _ _ rfl⟩) ⟨rfl, .construct _ _ rfl⟩)
      ⟨rfl, .construct _ _ rfl⟩) ⟨rfl, .construct _ _ rfl⟩) ⟨rfl, .construct _ _ rfl⟩
  have thread : Reaches Shutdown.Step Shutdown.start [.start, .test, .arrive event, .select, .read [event]] handling :=
    .step (.step (.step (.step (.step .start (.start _ rfl)) (.testTrue _ rfl rfl)) (.arrive _ event))
      (.select _ rfl (.inr (by simp [Shutdown.start, Shutdown.Watches])))) (.read _ [event] [] rfl (by simp) rfl)
  exact callbacks_alive (thread_runs constructed rfl (by simp [plan]) thread (by simp [Shutdown.Label.isDestructor]))

end Client
end SecureChat
