import SecureChat.Common.Startup
import SecureChat.Library.Machine

/-!
# Which files are loaded

A regular file is loaded if the scan returns it, or if it is created or written once the watch has
been added. One that is created before the watch, which the scan does not return and nobody writes
to later, stays unloaded.
-/

namespace SecureChat.Startup
open Library

def Caught (before : List Label) (name : StdString) (rest : List Label) : Prop :=
  .addWatch ∈ before ∨ .scan name ∈ rest ∨
    ∃ middle late, rest = middle ++ .write name :: late ∧ .addWatch ∈ middle

/-- Every regular file that is created before the watch is added and that stays is returned by the
scan after its creation or written to after the watch is added. -/
def NoneMissed (labels : List Label) : Prop :=
  ∀ before name rest, labels = before ++ .create name .regular :: rest → .addWatch ∉ before →
    .remove name ∉ rest →
    .scan name ∈ rest ∨ ∃ middle late, rest = middle ++ .write name :: late ∧ .addWatch ∈ middle

theorem caught_concat (before : List Label) (name : StdString) (rest : List Label) (label : Label) :
    Caught before name (rest ++ [label]) ↔ Caught before name rest ∨ label = .scan name ∨
      (label = .write name ∧ (.addWatch ∈ before ∨ .addWatch ∈ rest)) := by
  unfold Caught
  constructor
  · rintro (early | scanned | ⟨middle, late, split, watched⟩)
    · exact .inl (.inl early)
    · rcases List.mem_append.mp scanned with scanned | scanned
      · exact .inl (.inr (.inl scanned))
      · exact .inr (.inl (List.mem_singleton.mp scanned).symm)
    · rcases concat_eq_append_cons.mp split with ⟨rfl, rfl, _⟩ | ⟨late', _, same⟩
      · exact .inr (.inr ⟨rfl, .inr watched⟩)
      · exact .inl (.inr (.inr ⟨middle, late', same, watched⟩))
  · rintro ((early | scanned | ⟨middle, late, rfl, watched⟩) | rfl | ⟨rfl, early | watched⟩)
    · exact .inl early
    · exact .inr (.inl (List.mem_append_left _ scanned))
    · exact .inr (.inr ⟨middle, late ++ [label], by simp, watched⟩)
    · exact .inr (.inl (by simp))
    · exact .inl early
    · exact .inr (.inr ⟨rest, [], rfl, watched⟩)

theorem Step.watching {s after : Startup} {label : Label} (step : Step s label after) :
    after.phase = .watching ↔ s.phase = .watching ∨ label = .addWatch := by
  cases step with
  | scan name entry present scanning =>
      dsimp only
      split <;> simp [load, setEntry]
  | create | write | remove => simp [setEntry]
  | handle => simp [Startup.handle]
  | _ => simp_all

theorem Step.quiet {s after : Startup} {label : Label} (step : Step s label after)
    (quiet : s.phase ≠ .watching → s.queue = []) (early : after.phase ≠ .watching) : after.queue = [] := by
  have before : s.queue = [] := quiet fun watching => early (step.watching.mpr (.inl watching))
  cases step with
  | scan name entry present scanning =>
      dsimp only
      split <;> exact before
  | create | write | remove =>
      have unwatched : s.phase ≠ .watching := early
      simpa [report, setEntry, unwatched] using before
  | handle event rest pending watching =>
      rw [before] at pending
      contradiction
  | _ => exact before

/-- What a run has come to: a regular file that has been created and stays is in the directory, and
it has been seen exactly if it has been caught. -/
structure Tracked (labels : List Label) (s : Startup) : Prop where
  watching : s.phase = .watching ↔ .addWatch ∈ labels
  quiet : s.phase ≠ .watching → s.queue = []
  born : ∀ name entry, s.dir name = some entry → entry.born ≤ s.watch.loader.log.length
  created : ∀ name entry, s.dir name = some entry → entry.kind = .regular →
    ∃ before rest, labels = before ++ .create name .regular :: rest ∧ .remove name ∉ rest
  present : ∀ before name rest, labels = before ++ .create name .regular :: rest → .remove name ∉ rest →
    ∃ entry, s.dir name = some entry ∧ entry.kind = .regular ∧
      (s.Seen name entry.born ↔ Caught before name rest)

theorem tracked_start : Tracked [] start where
  watching := by simp [start]
  quiet _ := rfl
  born := by simp [start]
  created := by simp [start]
  present := by simp

theorem created_seen {labels : List Label} {s : Startup} (tracked : Tracked labels s) (name : StdString)
    (entry : Option DirEntry) :
    ((s.setEntry name entry).report .create .regular name).Seen name s.watch.loader.log.length ↔
      Caught labels name [] := by
  have unloaded : ¬ (s.setEntry name entry).LoadedSince name s.watch.loader.log.length := by
    simp [LoadedSince, Opened, setEntry]
  have caught : Caught labels name [] ↔ s.phase = .watching := by
    simp [Caught, tracked.watching]
  -- an event of an earlier file of the name can only wait if the watch is there, and then the
  -- creation is reported as well
  have waits : (s.setEntry name entry).Pending name → s.phase = .watching := by
    intro pending
    obtain ⟨event, member, _⟩ := pending
    by_contra early
    have empty : s.queue = [] := tracked.quiet early
    simp [setEntry, empty] at member
  rw [report_seen, caught, Seen]
  constructor
  · rintro ((loaded | pending) | ⟨watching, _⟩)
    · exact absurd loaded unloaded
    · exact waits pending
    · exact watching
  · exact fun watching => .inr ⟨watching, by simp⟩

theorem Tracked.step {labels : List Label} {s after : Startup} {label : Label} (tracked : Tracked labels s)
    (step : Step s label after) : Tracked (labels ++ [label]) after where
  watching := by
    rw [step.watching, tracked.watching]
    simp [eq_comm]
  quiet := step.quiet tracked.quiet
  born name entry found := by
    rcases step.origin found with ⟨_, born⟩ | ⟨_, earlier, was, _, born⟩
    · exact born ▸ step.length
    · exact born ▸ Nat.le_trans (tracked.born name earlier was) step.length
  created name entry found regular := by
    rcases step.origin found with ⟨rfl, _⟩ | ⟨kept, earlier, was, kind, _⟩
    · exact ⟨labels, [], by rw [regular], by simp⟩
    · obtain ⟨before, rest, rfl, stays⟩ := tracked.created name earlier was (kind.trans regular)
      exact ⟨before, rest ++ [label], by simp, by simpa [stays] using Ne.symm kept⟩
  present before name rest split stays := by
    rcases concat_eq_append_cons.mp split with ⟨rfl, rfl, rfl⟩ | ⟨middle, rfl, rfl⟩
    · cases step with
      | create kind absent =>
          exact ⟨_, setEntry_eq_some.mpr (.inl ⟨rfl, rfl⟩), rfl, created_seen tracked name _⟩
    · simp only [List.mem_append, List.mem_singleton, not_or] at stays
      obtain ⟨entry, found, regular, seen⟩ := tracked.present before name middle rfl stays.1
      obtain ⟨entry', found', kind, born⟩ := step.stays found (Ne.symm stays.2)
      have seen' := step.seen found regular (tracked.born name entry found)
      refine ⟨entry', found', kind.trans regular, ?_⟩
      rw [born, seen', seen, caught_concat, tracked.watching]
      simp

theorem tracked {labels : List Label} {s : Startup} (run : Runs labels s) : Tracked labels s := by
  induction run with
  | start => exact tracked_start
  | step _ step ih => exact ih.step step

theorem allLoaded_iff {labels : List Label} {s : Startup} (run : Runs labels s) (quiescent : s.Quiescent) :
    s.AllLoaded ↔ NoneMissed labels := by
  have tracked := tracked run
  have loaded (name : StdString) (born : Nat) : s.LoadedSince name born ↔ s.Seen name born := by
    simp [Seen, Pending, quiescent.2]
  constructor
  · intro all before name rest split early stays
    obtain ⟨entry, found, regular, seen⟩ := tracked.present before name rest split stays
    have caught := seen.mp ((loaded ..).mp (all name entry found regular))
    exact caught.resolve_left early
  · intro none name entry found regular
    obtain ⟨before, rest, split, stays⟩ := tracked.created name entry found regular
    obtain ⟨entry', found', _, seen⟩ := tracked.present before name rest split stays
    rw [found, Option.some.injEq] at found'
    subst found'
    rw [loaded, seen]
    by_cases early : .addWatch ∈ before
    · exact .inl early
    · exact .inr (none before name rest split early stays)

theorem allLoaded_iff_scanned :
    ∃ s, Runs [.create (lit "hello.so") .regular, .openDir, .scan (lit "hello.so"), .endScan,
        .startWatcher, .addWatch] s ∧ s.Quiescent ∧
      (s.AllLoaded ↔ NoneMissed [.create (lit "hello.so") .regular, .openDir, .scan (lit "hello.so"),
        .endScan, .startWatcher, .addWatch]) := by
  have present : Runs [.create (lit "hello.so") .regular, .openDir] _ :=
    .step (.step .start (.create start (lit "hello.so") .regular rfl)) (.openDir _ rfl)
  have scanned := Reaches.step present (.scan _ (lit "hello.so") ⟨.regular, true, false, 0⟩ rfl rfl)
  have complete := Reaches.step scanned (.endScan _ rfl (by
    intro name entry found _
    rcases setEntry_eq_some.mp found with ⟨rfl, same⟩ | ⟨differ, earlier⟩
    · cases same
      rfl
    · simp [report, setEntry, start, differ] at earlier))
  have run := Reaches.step (.step complete (.startWatcher _ rfl)) (.addWatch _ rfl)
  exact ⟨_, run, ⟨rfl, rfl⟩, allLoaded_iff run ⟨rfl, rfl⟩⟩

theorem created_before_watch_not_loaded :
    ¬ ∀ labels s, Runs labels s → s.Quiescent → s.AllLoaded := by
  intro claim
  have scanned : Runs [.openDir, .endScan] _ :=
    .step (.step .start (.openDir start rfl)) (.endScan _ rfl (by simp [start]))
  have created := Reaches.step scanned (.create _ (lit "hello.so") .regular rfl)
  have run := Reaches.step (.step created (.startWatcher _ rfl)) (.addWatch _ rfl)
  obtain ⟨handle, opened⟩ := claim _ _ run ⟨rfl, rfl⟩ (lit "hello.so") ⟨.regular, false, false, 0⟩ rfl rfl
  revert opened
  simp [setEntry, report, start]

end SecureChat.Startup
