import SecureChat.Common.PluginDirectory
import SecureChat.Common.PluginWatch

/-!
# The start of a plugin manager

The constructor scans the plugin directory and loads every regular file that the scan returns; then
it starts the watcher, whose thread adds the inotify watch and handles the events from then on. All
the while files are created, written and removed. A file that is created after the scan has gone
past it and before the watch is added is seen by neither.
-/

namespace SecureChat
open Library

/-- The event that inotify reports. Names are padded, so a named event never has the length 0. -/
def FileEvent.report (e : FileEvent) (kind : FileKind) (name : StdString) : InotifyEvent where
  mask := e.bit ||| if kind = .directory then IN_ISDIR else 0
  len := 16
  name
  oneKind := by cases e <;> cases kind <;> decide

theorem FileEvent.changesFile_report (e : FileEvent) (kind : FileKind) (name : StdString) :
    (e.report kind name).changesFile = (decide (kind ≠ .directory) && decide (e ≠ .delete)) := by
  change (e.report kind []).changesFile = _
  cases e <;> cases kind <;> decide

structure DirEntry where
  kind : FileKind
  atOpen : Bool
  returned : Bool
  born : Nat

inductive Phase where
  | entered
  | scanning
  | scanned
  | started
  | watching
  deriving DecidableEq

structure Startup where
  phase : Phase
  dir : StdString → Option DirEntry
  queue : List InotifyEvent
  watch : PluginWatch

inductive Label where
  | create (name : StdString) (kind : FileKind)
  | write (name : StdString)
  | remove (name : StdString)
  | openDir
  | scan (name : StdString)
  | endScan
  | startWatcher
  | addWatch
  | handle
  deriving DecidableEq

namespace Startup

def setEntry (s : Startup) (name : StdString) (entry : Option DirEntry) : Startup :=
  { s with dir := Function.update s.dir name entry }

def report (s : Startup) (e : FileEvent) (kind : FileKind) (name : StdString) : Startup :=
  { s with queue := if s.phase = .watching then s.queue ++ [e.report kind name] else s.queue }

def load (s : Startup) (name : StdString) : Startup :=
  let done := PluginManager.exec reliable (PluginManager.loadPlugin name) s.watch.manager s.watch.loader
  { s with watch := ⟨done.2.1, done.2.2, s.watch.notified⟩ }

def handle (s : Startup) (event : InotifyEvent) : Startup :=
  { s with watch := (Program.exec (PluginWatch.answer reliable) (FileWatcher.handle event) s.watch).2 }

def start : Startup := ⟨.entered, fun _ => none, [], ⟨⟨∅, ∅⟩, ⟨[]⟩, []⟩⟩

/-- The steps of the directory, of the constructor and of the thread. The iterator returns what was
there when it was opened and has not been removed; it may return what has come since. -/
inductive Step : Startup → Label → Startup → Prop
  | create (s : Startup) (name : StdString) (kind : FileKind) (absent : s.dir name = none) :
      Step s (.create name kind)
        ((s.setEntry name (some ⟨kind, false, false, s.watch.loader.log.length⟩)).report .create kind name)
  | write (s : Startup) (name : StdString) (entry : DirEntry) (present : s.dir name = some entry)
      (writable : entry.kind ≠ .directory) :
      Step s (.write name) (s.report .modify entry.kind name)
  | remove (s : Startup) (name : StdString) (entry : DirEntry) (present : s.dir name = some entry) :
      Step s (.remove name) ((s.setEntry name none).report .delete entry.kind name)
  | openDir (s : Startup) (entered : s.phase = .entered) :
      Step s .openDir { s with
        phase := .scanning
        dir := fun name => (s.dir name).map fun entry => { entry with atOpen := true } }
  | scan (s : Startup) (name : StdString) (entry : DirEntry) (present : s.dir name = some entry)
      (scanning : s.phase = .scanning) :
      Step s (.scan name) (let returned := s.setEntry name (some { entry with returned := true })
        if entry.kind = .regular then returned.load name else returned)
  | endScan (s : Startup) (scanning : s.phase = .scanning)
      (complete : ∀ name entry, s.dir name = some entry → entry.atOpen = true → entry.returned = true) :
      Step s .endScan { s with phase := .scanned }
  | startWatcher (s : Startup) (scanned : s.phase = .scanned) :
      Step s .startWatcher { s with phase := .started }
  | addWatch (s : Startup) (started : s.phase = .started) :
      Step s .addWatch { s with phase := .watching }
  | handle (s : Startup) (event : InotifyEvent) (rest : List InotifyEvent) (pending : s.queue = event :: rest)
      (watching : s.phase = .watching) : Step s .handle ({ s with queue := rest }.handle event)

abbrev Runs : List Label → Startup → Prop := Reaches Step start

def Quiescent (s : Startup) : Prop := s.phase = .watching ∧ s.queue = []

def LoadedSince (s : Startup) (name : StdString) (born : Nat) : Prop :=
  Opened (s.watch.loader.log.drop born) name

def AllLoaded (s : Startup) : Prop :=
  ∀ name entry, s.dir name = some entry → entry.kind = .regular → s.LoadedSince name entry.born

/-! ## What a step does -/

def Pending (s : Startup) (name : StdString) : Prop :=
  ∃ event ∈ s.queue, event.changesFile = true ∧ event.name = name

def Seen (s : Startup) (name : StdString) (born : Nat) : Prop :=
  s.LoadedSince name born ∨ s.Pending name

theorem opened_drop {l after : Loader} {names : StdString → Prop} (opens : l.Opens after names) {born : Nat}
    (past : born ≤ l.log.length) (name : StdString) :
    Opened (after.log.drop born) name ↔ Opened (l.log.drop born) name ∨ names name := by
  obtain ⟨added, extended, opened⟩ := opens
  rw [extended, List.drop_append_of_le_length past, ← opened]
  simp [Opened, exists_or]

@[simp] theorem report_dir (s : Startup) (e : FileEvent) (kind : FileKind) (name : StdString) :
    (s.report e kind name).dir = s.dir := rfl
@[simp] theorem report_phase (s : Startup) (e : FileEvent) (kind : FileKind) (name : StdString) :
    (s.report e kind name).phase = s.phase := rfl
@[simp] theorem report_watch (s : Startup) (e : FileEvent) (kind : FileKind) (name : StdString) :
    (s.report e kind name).watch = s.watch := rfl

theorem report_seen (s : Startup) (e : FileEvent) (kind : FileKind) (other name : StdString) (born : Nat) :
    (s.report e kind other).Seen name born ↔
      s.Seen name born ∨ (s.phase = .watching ∧ kind ≠ .directory ∧ e ≠ .delete ∧ other = name) := by
  have named : (e.report kind other).name = other := rfl
  by_cases watching : s.phase = .watching
  · simp [Seen, Pending, LoadedSince, report, watching, or_and_right, exists_or,
      FileEvent.changesFile_report, named, or_assoc, and_assoc]
  · simp [Seen, Pending, LoadedSince, report, watching]

theorem load_seen (s : Startup) (other name : StdString) {born : Nat}
    (past : born ≤ s.watch.loader.log.length) :
    (s.load other).Seen name born ↔ s.Seen name born ∨ name = other := by
  have opened := opened_drop (PluginManager.loadPlugin_opens s.watch.manager s.watch.loader other) past name
  have loaded : (s.load other).LoadedSince name born ↔ s.LoadedSince name born ∨ name = other := opened
  have pending : (s.load other).Pending name ↔ s.Pending name := Iff.rfl
  rw [Seen, loaded, pending, Seen, or_right_comm]

theorem handle_seen (s : Startup) {event : InotifyEvent} {rest : List InotifyEvent}
    (pending : s.queue = event :: rest) (name : StdString) {born : Nat}
    (past : born ≤ s.watch.loader.log.length) :
    ({ s with queue := rest }.handle event).Seen name born ↔ s.Seen name born := by
  have opened := opened_drop (PluginWatch.handle_opens s.watch event) past name
  have loaded : ({ s with queue := rest }.handle event).LoadedSince name born ↔
      s.LoadedSince name born ∨ (event.changesFile = true ∧ name = event.name) := opened
  have waits : s.Pending name ↔ (event.changesFile = true ∧ event.name = name) ∨
      ({ s with queue := rest }.handle event).Pending name := by
    simp [Pending, pending, handle]
  rw [Seen, loaded, Seen, waits, eq_comm (a := name), or_assoc]

theorem load_length (s : Startup) (name : StdString) :
    s.watch.loader.log.length ≤ (s.load name).watch.loader.log.length := by
  obtain ⟨added, extended, _⟩ := PluginManager.loadPlugin_opens s.watch.manager s.watch.loader name
  simp [load, extended]

theorem handle_length (s : Startup) (event : InotifyEvent) :
    s.watch.loader.log.length ≤ (s.handle event).watch.loader.log.length := by
  obtain ⟨added, extended, _⟩ := PluginWatch.handle_opens s.watch event
  simp [handle, extended]

theorem Step.length {s after : Startup} {label : Label} (step : Step s label after) :
    s.watch.loader.log.length ≤ after.watch.loader.log.length := by
  cases step with
  | scan name entry present scanning =>
      dsimp only
      split
      · exact load_length (s.setEntry name _) name
      · exact Nat.le_refl _
  | handle event rest pending watching => exact handle_length _ event
  | _ => exact Nat.le_refl _

theorem setEntry_eq_some {s : Startup} {other name : StdString} {set : Option DirEntry} {entry : DirEntry} :
    (s.setEntry other set).dir name = some entry ↔
      name = other ∧ set = some entry ∨ name ≠ other ∧ s.dir name = some entry := by
  by_cases same : name = other <;> simp [setEntry, same]

theorem setEntry_seen (s : Startup) (other : StdString) (set : Option DirEntry) (name : StdString) (born : Nat) :
    (s.setEntry other set).Seen name born ↔ s.Seen name born := Iff.rfl

theorem Step.stays {s after : Startup} {label : Label} (step : Step s label after) {name : StdString}
    {entry : DirEntry} (present : s.dir name = some entry) (kept : label ≠ .remove name) :
    ∃ entry', after.dir name = some entry' ∧ entry'.kind = entry.kind ∧ entry'.born = entry.born := by
  cases step with
  | create other kind absent =>
      have differ : name ≠ other := by
        rintro rfl
        rw [absent] at present
        contradiction
      exact ⟨entry, setEntry_eq_some.mpr (.inr ⟨differ, present⟩), rfl, rfl⟩
  | remove other removed removed_present =>
      have differ : name ≠ other := by
        rintro rfl
        exact kept rfl
      exact ⟨entry, setEntry_eq_some.mpr (.inr ⟨differ, present⟩), rfl, rfl⟩
  | openDir entered => exact ⟨{ entry with atOpen := true }, by simp [present], rfl, rfl⟩
  | scan other scanned scanned_present scanning =>
      have set : ∃ entry', (s.setEntry other (some { scanned with returned := true })).dir name = some entry' ∧
          entry'.kind = entry.kind ∧ entry'.born = entry.born := by
        by_cases same : name = other
        · subst same
          rw [present, Option.some.injEq] at scanned_present
          subst scanned_present
          exact ⟨{ entry with returned := true }, setEntry_eq_some.mpr (.inl ⟨rfl, rfl⟩), rfl, rfl⟩
        · exact ⟨entry, setEntry_eq_some.mpr (.inr ⟨same, present⟩), rfl, rfl⟩
      dsimp only
      split <;> exact set
  | _ => exact ⟨entry, present, rfl, rfl⟩

theorem Step.seen {s after : Startup} {label : Label} (step : Step s label after) {name : StdString}
    {entry : DirEntry} (present : s.dir name = some entry) (regular : entry.kind = .regular)
    (past : entry.born ≤ s.watch.loader.log.length) :
    after.Seen name entry.born ↔ s.Seen name entry.born ∨ label = .scan name ∨
      (label = .write name ∧ s.phase = .watching) := by
  cases step with
  | create other kind absent =>
      have differ : other ≠ name := by
        rintro rfl
        rw [absent] at present
        contradiction
      rw [report_seen, setEntry_seen]
      simp [differ]
  | write other written writable_present writable =>
      rw [report_seen]
      simp [writable, and_comm]
  | remove other removed removed_present =>
      rw [report_seen, setEntry_seen]
      simp
  | scan other scanned scanned_present scanning =>
      dsimp only
      split
      · rw [load_seen (s.setEntry other _) other name past, setEntry_seen]
        simp [eq_comm]
      · next special =>
          have differ : other ≠ name := by
            rintro rfl
            rw [present, Option.some.injEq] at scanned_present
            exact special (scanned_present ▸ regular)
          rw [setEntry_seen]
          simp [differ]
  | handle event rest pending watching =>
      rw [handle_seen s pending name past]
      simp
  | _ => simp [Seen, Pending, LoadedSince]

theorem Step.origin {s after : Startup} {label : Label} (step : Step s label after) {name : StdString}
    {entry : DirEntry} (present : after.dir name = some entry) :
    label = .create name entry.kind ∧ entry.born = s.watch.loader.log.length ∨
    label ≠ .remove name ∧ ∃ earlier, s.dir name = some earlier ∧ earlier.kind = entry.kind ∧
      earlier.born = entry.born := by
  cases step with
  | create other kind absent =>
      rcases setEntry_eq_some.mp present with ⟨rfl, same⟩ | ⟨differ, earlier⟩
      · cases same
        exact .inl ⟨rfl, rfl⟩
      · exact .inr ⟨by simp, entry, earlier, rfl, rfl⟩
  | remove other removed removed_present =>
      rcases setEntry_eq_some.mp present with ⟨_, same⟩ | ⟨differ, earlier⟩
      · contradiction
      · exact .inr ⟨by simpa using differ.symm, entry, earlier, rfl, rfl⟩
  | openDir entered =>
      obtain ⟨earlier, found, rfl⟩ := Option.map_eq_some_iff.mp present
      exact .inr ⟨by simp, earlier, found, rfl, rfl⟩
  | scan other scanned scanned_present scanning =>
      have set : (s.setEntry other (some { scanned with returned := true })).dir name = some entry := by
        dsimp only at present
        split at present <;> exact present
      rcases setEntry_eq_some.mp set with ⟨rfl, same⟩ | ⟨differ, earlier⟩
      · cases same
        exact .inr ⟨by simp, scanned, scanned_present, rfl, rfl⟩
      · exact .inr ⟨by simp, entry, earlier, rfl, rfl⟩
  | _ => exact .inr ⟨by simp, entry, present, rfl, rfl⟩

end Startup
end SecureChat
