import SecureChat.Common.FileWatcher
import SecureChat.Library.Machine

/-!
# The end of a watcher

The destructor clears `running`, writes to the pipe and waits for the thread, which tests `running`,
waits in `select` and handles batches in the meantime. Nothing takes the byte out of the pipe, so
from then on every `select` returns and says that the pipe is readable.
-/

namespace SecureChat
open Library

inductive ThreadState where
  | notStarted
  | testing
  | selecting
  | selected (pipeSet fdSet : Bool)
  | handling (events : List InotifyEvent)
  | stopping
  | finished

inductive DestructorState where
  | notCalled
  | cleared
  | waiting
  | returned
  deriving DecidableEq

structure Shutdown where
  running : Bool
  /-- The bytes in the pipe. -/
  pipe : Nat
  queue : List InotifyEvent
  thread : ThreadState
  destructor : DestructorState
  /-- The rounds of the loop that are over. -/
  rounds : List Round

namespace Shutdown

inductive Label where
  | arrive (event : InotifyEvent)
  | clearRunning
  | notify
  | waitForFinished
  | start
  | test
  | select
  | stop
  | throw
  | read (events : List InotifyEvent)
  | handle
  | cleanup

def start : Shutdown := ⟨true, 0, [], .notStarted, .notCalled, []⟩

def Watches (s : Shutdown) : Bool :=
  match s.thread with
  | .notStarted | .finished => false
  | _ => true

/-- The steps of the files, of the destructor and of the thread. `select` returns once a descriptor
is readable, and says of both whether they are; `read` takes a part of what is queued. -/
inductive Step : Shutdown → Label → Shutdown → Prop
  | arrive (s : Shutdown) (event : InotifyEvent) :
      Step s (.arrive event) { s with queue := if s.Watches then s.queue ++ [event] else s.queue }
  | clearRunning (s : Shutdown) (notCalled : s.destructor = .notCalled) :
      Step s .clearRunning { s with running := false, destructor := .cleared }
  | notify (s : Shutdown) (cleared : s.destructor = .cleared) :
      Step s .notify { s with pipe := s.pipe + 1, destructor := .waiting }
  | waitForFinished (s : Shutdown) (waiting : s.destructor = .waiting) (finished : s.thread = .finished) :
      Step s .waitForFinished { s with destructor := .returned }
  | start (s : Shutdown) (notStarted : s.thread = .notStarted) :
      Step s .start { s with thread := .testing }
  | testTrue (s : Shutdown) (testing : s.thread = .testing) (running : s.running = true) :
      Step s .test { s with thread := .selecting }
  | testFalse (s : Shutdown) (testing : s.thread = .testing) (ended : s.running = false) :
      Step s .test { s with thread := .stopping, rounds := s.rounds ++ [.notRunning] }
  | select (s : Shutdown) (selecting : s.thread = .selecting) (readable : 0 < s.pipe ∨ s.queue ≠ []) :
      Step s .select { s with thread := .selected (decide (0 < s.pipe)) !s.queue.isEmpty }
  | stop (s : Shutdown) (fdSet : Bool) (selected : s.thread = .selected true fdSet) :
      Step s .stop { s with thread := .stopping, rounds := s.rounds ++ [.pipe] }
  | unexpectedFd (s : Shutdown) (selected : s.thread = .selected false false) :
      Step s .throw { s with thread := .finished, rounds := s.rounds ++ [.unexpectedFd] }
  | read (s : Shutdown) (events rest : List InotifyEvent) (selected : s.thread = .selected false true)
      (some : events ≠ []) (queued : s.queue = events ++ rest) :
      Step s (.read events) { s with thread := .handling events, queue := rest }
  | handle (s : Shutdown) (events : List InotifyEvent) (handling : s.thread = .handling events) :
      Step s .handle { s with thread := .testing, rounds := s.rounds ++ [.batch events] }
  | cleanup (s : Shutdown) (stopping : s.thread = .stopping) :
      Step s .cleanup { s with thread := .finished }

abbrev Runs : List Label → Shutdown → Prop := Reaches Step Shutdown.start

def Label.isRead : Label → Bool
  | .read _ => true
  | _ => false

def Label.isHandle : Label → Bool
  | .handle => true
  | _ => false

def Hangs (s : Shutdown) : Prop :=
  s.destructor = .waiting ∧ s.thread = .selecting ∧ s.pipe = 0 ∧ s.queue = []

/-! ## What a step leaves to be handled -/

def unhandled (s : Shutdown) : Nat :=
  match s.thread with
  | .handling _ => 1
  | _ => 0

/-- The batches that are read next even if the pipe is readable by then. -/
def unread (s : Shutdown) : Nat :=
  match s.thread with
  | .selected false true => 1
  | _ => 0

theorem unhandled_add_unread (s : Shutdown) : s.unhandled + s.unread ≤ 1 := by
  unfold unhandled unread
  split <;> split <;> simp_all

theorem Step.unhandled {s after : Shutdown} {label : Label} (step : Step s label after) :
    label.isRead.toNat + s.unhandled = label.isHandle.toNat + after.unhandled := by
  cases step <;> simp_all [Shutdown.unhandled, Label.isRead, Label.isHandle]

theorem Step.unread {s after : Shutdown} {label : Label} (step : Step s label after) (written : 0 < s.pipe) :
    label.isRead.toNat + after.unread ≤ s.unread := by
  cases step <;> simp_all [Shutdown.unread, Label.isRead]

theorem Step.pipe {s after : Shutdown} {label : Label} (step : Step s label after) :
    s.pipe ≤ after.pipe ∧ (label = .notify → 0 < after.pipe) := by
  cases step <;> simp

/-! ## Whole runs -/

structure Notified (labels : List Label) (s : Shutdown) : Prop where
  reads : labels.countP Label.isRead = labels.countP Label.isHandle + s.unhandled
  pipe : .notify ∈ labels → 0 < s.pipe
  waits : s.destructor = .waiting → .notify ∈ labels
  atMost : ∀ before after, labels = before ++ .notify :: after →
    labels.countP Label.isRead + s.unread ≤ before.countP Label.isHandle + 1

theorem Notified.start : Notified [] Shutdown.start where
  reads := rfl
  pipe := by simp
  waits := by simp [Shutdown.start]
  atMost := by simp

theorem countP_concat (p : Label → Bool) (labels : List Label) (label : Label) :
    (labels ++ [label]).countP p = labels.countP p + (p label).toNat := by
  cases chosen : p label <;> simp [chosen]

theorem Notified.step {labels : List Label} {s after : Shutdown} {label : Label}
    (notified : Notified labels s) (step : Step s label after) : Notified (labels ++ [label]) after where
  reads := by
    have kept := step.unhandled
    have reads := notified.reads
    rw [countP_concat, countP_concat]
    omega
  pipe := by
    intro member
    obtain ⟨grows, written⟩ := step.pipe
    rcases List.mem_append.mp member with earlier | last
    · exact Nat.lt_of_lt_of_le (notified.pipe earlier) grows
    · exact written (List.mem_singleton.mp last).symm
  waits := by
    intro waiting
    have waits := notified.waits
    cases step <;> simp_all
  atMost := by
    intro before rest split
    rw [countP_concat]
    rcases concat_eq_append_cons.mp split with ⟨rfl, rfl, _⟩ | ⟨middle, _, earlier⟩
    · -- the notification itself: at most one batch is being handled or about to be read
      have reads := notified.reads
      have bound := s.unhandled_add_unread
      have unread : after.unread = s.unread := by
        cases step
        rfl
      simp only [Label.isRead, Bool.toNat_false]
      omega
    · have written := notified.pipe (by simp [earlier])
      have kept := step.unread written
      have atMost := notified.atMost before middle earlier
      omega

/-- In no interleaving does the destructor wait for a thread that is never woken. After the
notification the thread handles at most one batch, and of the batches that it reads at all at most one
has not been handled by then. -/
theorem never_hangs {labels : List Label} {s : Shutdown} (run : Runs labels s) : ¬ s.Hangs ∧
    ∀ before after, labels = before ++ .notify :: after → after.countP Label.isHandle ≤ 1 ∧
      labels.countP Label.isRead ≤ before.countP Label.isHandle + 1 := by
  have notified := run.rule Notified .start fun past s label after => Notified.step
  refine ⟨?_, fun before after split => ?_⟩
  · intro ⟨waiting, _, empty, _⟩
    have written := notified.pipe (notified.waits waiting)
    omega
  · have reads := notified.reads
    have atMost := notified.atMost before after split
    have handled : labels.countP Label.isHandle = before.countP Label.isHandle + after.countP Label.isHandle := by
      simp [split, Label.isHandle]
    omega

theorem never_hangs_reading :
    let event : InotifyEvent := ⟨IN_CREATE, 16, lit "a.so", by decide⟩
    let labels : List Label :=
      [.start, .test, .arrive event, .select, .clearRunning, .notify, .read [event], .handle]
    ¬ Hangs ⟨false, 1, [], .testing, .waiting, [.batch [event]]⟩ ∧
    ∀ before after, labels = before ++ .notify :: after → after.countP Label.isHandle ≤ 1 ∧
      labels.countP Label.isRead ≤ before.countP Label.isHandle + 1 := by
  intro event labels
  have selected : Runs [.start, .test, .arrive event, .select]
      ⟨true, 0, [event], .selected false true, .notCalled, []⟩ :=
    .step (.step (.step (.step .start (.start _ rfl)) (.testTrue _ rfl rfl)) (.arrive _ event))
      (.select _ rfl (.inr (by simp [Shutdown.start, Watches])))
  have run : Runs labels ⟨false, 1, [], .testing, .waiting, [.batch [event]]⟩ :=
    .step (.step (.step (.step selected (.clearRunning _ rfl)) (.notify _ rfl))
      (.read _ [event] [] rfl (by simp) rfl)) (.handle _ [event] rfl)
  exact never_hangs run

/-! ## What the thread has done -/

def Label.batch : Label → Option (List InotifyEvent)
  | .read events => some events
  | _ => none

def ended (rounds : List Round) (batches : List (List InotifyEvent)) : Prop :=
  ∃ last, (last = .notRunning ∨ last = .pipe) ∧ rounds = batches.map .batch ++ [last]

/-- The rounds of the loop are the batches that have been read, up to a round that ends it without
an error. -/
def Follows (labels : List Label) (s : Shutdown) : Prop :=
  let batches := labels.filterMap Label.batch
  match s.thread with
  | .handling events => ∃ earlier, batches = earlier ++ [events] ∧ s.rounds = earlier.map .batch
  | .stopping | .finished => ended s.rounds batches
  | .selected false false => False
  | _ => s.rounds = batches.map .batch

theorem Follows.step {labels : List Label} {s after : Shutdown} {label : Label} (follows : Follows labels s)
    (step : Step s label after) : Follows (labels ++ [label]) after := by
  have batches : (labels ++ [label]).filterMap Label.batch =
      labels.filterMap Label.batch ++ label.batch.toList := by
    rw [List.filterMap_append]
    cases label <;> rfl
  unfold Follows at *
  rw [batches]
  cases step with
  | handle events handling =>
      rw [handling] at follows
      obtain ⟨earlier, read, rounds⟩ := follows
      simp [read, rounds, Label.batch]
  | testFalse testing stopped =>
      rw [testing] at follows
      exact ⟨.notRunning, .inl rfl, by simp [follows, Label.batch]⟩
  | stop fdSet selected =>
      rw [selected] at follows
      exact ⟨.pipe, .inr rfl, by simp [follows, Label.batch]⟩
  | select selecting readable =>
      rw [selecting] at follows
      by_cases written : 0 < s.pipe
      · simpa [written, Label.batch] using follows
      · have queued : s.queue.isEmpty = false := by simpa [written] using readable
        simpa [written, queued, Label.batch] using follows
  | unexpectedFd selected =>
      rw [selected] at follows
      contradiction
  | read events rest selected some queued =>
      rw [selected] at follows
      exact ⟨_, rfl, follows⟩
  | start was | testTrue was _ | cleanup was =>
      rw [was] at follows
      simpa [Label.batch] using follows
  | _ => simpa [Label.batch] using follows

theorem finished_follows_loop {ε : Type} {labels : List Label} {s : Shutdown} (run : Runs labels s)
    (finished : s.thread = .finished) : (FileWatcher.loop s.rounds : FileWatcher.Watch ε Unit) = (do
      FileWatcher.handleBatch (labels.filterMap Label.batch).flatten
      FileWatcher.inotify_rm_watch
      FileWatcher.close) := by
  have initially : Follows [] Shutdown.start := rfl
  have follows := run.rule Follows initially fun _ _ _ _ => Follows.step
  unfold Follows at follows
  rw [finished] at follows
  obtain ⟨last, rfl | rfl, rounds⟩ := follows <;> rw [rounds, FileWatcher.loop_append] <;> rfl

end Shutdown
end SecureChat
