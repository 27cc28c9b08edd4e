import SecureChat.Common.PluginManager

/-!
# FileWatcher

The loop of the watcher's thread. Every round of it waits until the stop signal or a batch of
inotify events is there, and hands the events of a batch to the callback one after the other. An
exception of the callback leaves both loops.
-/

namespace SecureChat
open Library

def IN_MODIFY : UInt32 := 0x00000002
def IN_CREATE : UInt32 := 0x00000100
def IN_DELETE : UInt32 := 0x00000200
def IN_ISDIR : UInt32 := 0x40000000

def UInt32.has (mask bit : UInt32) : Bool := mask &&& bit != 0

/-- An event as the kernel reports it: of the three kinds that are watched for it is at most one. -/
structure InotifyEvent where
  mask : UInt32
  len : UInt32
  name : StdString
  oneKind : [IN_CREATE, IN_DELETE, IN_MODIFY].countP (UInt32.has mask) ≤ 1

structure Notification where
  name : StdString
  isDir : Bool
  event : FileEvent
  deriving DecidableEq

structure WatchException where
  reason : StdString
  deriving DecidableEq

inductive WatchFault (ε : Type) where
  | watch (e : WatchException)
  | callback (e : ε)

inductive WatchRequest where
  | inotify_init
  | inotify_add_watch (dir : StdString) (mask : UInt32)
  | callback (name : StdString) (isDir : Bool) (e : FileEvent)
  | inotify_rm_watch
  | close

def WatchRequest.Reply (ε : Type) : WatchRequest → Type
  | .inotify_init => Int
  | .callback _ _ _ => Except ε Unit
  | _ => Unit

/-- How a round of the loop goes on from its test of `running`. -/
inductive Round where
  | notRunning
  | selectFailed
  | timeout
  | pipe
  | unexpectedFd
  | readFailed
  | batch (events : List InotifyEvent)

namespace FileWatcher
variable {ε : Type}

abbrev Watch (ε α : Type) := ExceptT (WatchFault ε) (Program WatchRequest (WatchRequest.Reply ε)) α

def callback (name : StdString) (isDir : Bool) (e : FileEvent) : Watch ε Unit := do
  let answer : Except ε Unit ← ExceptT.lift (Program.ask (WatchRequest.callback name isDir e))
  match answer with
  | .ok () => pure ()
  | .error e => throw (.callback e)

def inotify_init : Watch ε Int := ExceptT.lift (Program.ask WatchRequest.inotify_init)

def inotify_add_watch (dir : StdString) (mask : UInt32) : Watch ε Unit :=
  ExceptT.lift (Program.ask (WatchRequest.inotify_add_watch dir mask))

def inotify_rm_watch : Watch ε Unit := ExceptT.lift (Program.ask WatchRequest.inotify_rm_watch)

def close : Watch ε Unit := ExceptT.lift (Program.ask WatchRequest.close)

def handle (event : InotifyEvent) : Watch ε Unit := do
  if event.len ≠ 0 then
    if UInt32.has event.mask IN_CREATE then
      callback event.name (UInt32.has event.mask IN_ISDIR) .create
    else if UInt32.has event.mask IN_DELETE then
      callback event.name (UInt32.has event.mask IN_ISDIR) .delete
    else if UInt32.has event.mask IN_MODIFY then
      callback event.name (UInt32.has event.mask IN_ISDIR) .modify

def handleBatch : List InotifyEvent → Watch ε Unit
  | [] => pure ()
  | event :: rest => do
      handle event
      handleBatch rest

/-- The loop while `running`. After the last of the rounds the thread waits in `select`. -/
def loop : List Round → Watch ε Unit
  | [] => pure ()
  | .notRunning :: _ | .pipe :: _ => do
      inotify_rm_watch
      close
  | .selectFailed :: _ => throw (.watch ⟨lit "select failed"⟩)
  | .timeout :: _ => throw (.watch ⟨lit "select should never timeout"⟩)
  | .unexpectedFd :: _ => throw (.watch ⟨lit "unexpected fd"⟩)
  | .readFailed :: _ => throw (.watch ⟨lit "failed to read() events"⟩)
  | .batch events :: rest => do
      handleBatch events
      loop rest

def watch (dir : StdString) (rounds : List Round) : Watch ε Unit := do
  if (← inotify_init) < 0 then
    throw (.watch ⟨lit "failed to init inotify"⟩)
  inotify_add_watch dir (IN_MODIFY ||| IN_CREATE ||| IN_DELETE)
  loop rounds

def tell (n : Notification) : Watch ε Unit := callback n.name n.isDir n.event

end FileWatcher

/-! ## Notifications -/

def FileEvent.bit : FileEvent → UInt32
  | .create => IN_CREATE
  | .modify => IN_MODIFY
  | .delete => IN_DELETE

namespace InotifyEvent

def notification (event : InotifyEvent) : Option Notification :=
  if event.len = 0 then none
  else if UInt32.has event.mask IN_CREATE then some ⟨event.name, UInt32.has event.mask IN_ISDIR, .create⟩
  else if UInt32.has event.mask IN_DELETE then some ⟨event.name, UInt32.has event.mask IN_ISDIR, .delete⟩
  else if UInt32.has event.mask IN_MODIFY then some ⟨event.name, UInt32.has event.mask IN_ISDIR, .modify⟩
  else none

theorem notification_name {event : InotifyEvent} {n : Notification} (told : event.notification = some n) :
    n.name = event.name := by
  unfold notification at told
  split at told
  · contradiction
  · split_ifs at told <;> cases told <;> rfl

end InotifyEvent

namespace FileWatcher
variable {ε : Type}

theorem handle_eq (event : InotifyEvent) :
    (handle event : Watch ε Unit) = match event.notification with
      | none => pure ()
      | some n => tell n := by
  unfold handle InotifyEvent.notification
  split_ifs <;> first | rfl | contradiction

theorem handleBatch_eq (events : List InotifyEvent) :
    (handleBatch events : Watch ε Unit) = forM (events.filterMap InotifyEvent.notification) tell := by
  induction events with
  | nil => rfl
  | cons event rest ih =>
      rw [handleBatch, handle_eq, ih]
      cases found : event.notification with
      | none =>
          rw [List.filterMap_cons_none found]
          rfl
      | some n =>
          rw [List.filterMap_cons_some found]
          rfl

/-! ## Batches -/

theorem handleBatch_append_eq (first rest : List InotifyEvent) :
    (handleBatch (first ++ rest) : Watch ε Unit) = handleBatch first >>= fun _ => handleBatch rest := by
  induction first with
  | nil => rfl
  | cons event first ih => simp only [List.cons_append, handleBatch, ih, bind_assoc]

theorem handleBatch_append (first rest : List InotifyEvent) {σ : Type}
    (answer : (r : WatchRequest) → σ → WatchRequest.Reply ε r × σ) (s : σ) :
    Program.exec answer (handleBatch (first ++ rest)) s =
      match Program.exec answer (handleBatch first) s with
      | (.ok _, after) => Program.exec answer (handleBatch rest) after
      | (.error e, after) => (.error e, after) := by
  rw [handleBatch_append_eq, Program.exec_bind]
  rcases Program.exec answer (handleBatch first) s with ⟨_ | _, after⟩ <;> rfl

theorem handleBatch_singleton (event : InotifyEvent) {σ : Type}
    (answer : (r : WatchRequest) → σ → WatchRequest.Reply ε r × σ) (s : σ) :
    Program.exec answer (handleBatch [event]) s = Program.exec answer (handle event) s := by
  simp only [handleBatch, Program.exec_bind, Program.exec_pure]
  rcases Program.exec answer (handle event) s with ⟨_ | _, after⟩ <;> rfl

theorem loop_append (batches : List (List InotifyEvent)) (rounds : List Round) :
    (loop (batches.map .batch ++ rounds) : Watch ε Unit) =
      handleBatch batches.flatten >>= fun _ => loop rounds := by
  induction batches with
  | nil => rfl
  | cons events batches ih =>
      rw [List.map_cons, List.cons_append, loop, ih, List.flatten_cons, handleBatch_append_eq, bind_assoc]

theorem loop_batches (batches : List (List InotifyEvent)) {σ : Type}
    (answer : (r : WatchRequest) → σ → WatchRequest.Reply ε r × σ) (s : σ) :
    Program.exec answer (loop (batches.map .batch)) s =
      Program.exec answer (handleBatch batches.flatten) s := by
  have whole : (loop (batches.map .batch ++ []) : Watch ε Unit) = handleBatch batches.flatten := by
    rw [loop_append]
    exact bind_pure _
  rw [← whole, List.append_nil]

end FileWatcher
end SecureChat
