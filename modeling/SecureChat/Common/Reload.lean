import SecureChat.Common.PluginWatch
import SecureChat.Library.Machine

/-!
# Reloading plugins

A plugin is meant to be loaded again whenever its file changes. An exception of a load leaves the
loops of the watcher, so every later event goes unseen.
-/

namespace SecureChat
open Library

section
variable (platform : Platform) (dir : StdString) (w : PluginWatch)

/-- The last event that changed the file of the name loaded it, when `first` counts the `dlopen`
calls before the events. -/
def LastLoadSucceeded (first : Nat) (events : List InotifyEvent) (name : StdString) : Prop :=
  ∃ before event after, events = before ++ event :: after ∧ event.changesFile = true ∧ event.name = name ∧
    (∀ later ∈ after, later.changesFile = true → later.name ≠ name) ∧
    platform.fails (first + before.countP InotifyEvent.changesFile) = false

def watched (batches : List (List InotifyEvent)) : PluginWatch :=
  (Program.exec (PluginWatch.answer platform) (FileWatcher.watch dir (batches.map .batch)) w).2

/-- All events have been handled, and the plugins are what their last events say. -/
structure HandlesAll (batches : List (List InotifyEvent)) : Prop where
  notified : (watched platform dir w batches).notified =
    w.notified ++ batches.flatten.filterMap InotifyEvent.notification
  plugins : ∀ event ∈ batches.flatten, event.changesFile = true →
    (event.name ∈ (watched platform dir w batches).manager.plugins ↔
      LastLoadSucceeded platform w.loader.dlopens batches.flatten event.name)

def OnlyLastFails (first : Nat) (events : List InotifyEvent) : Prop :=
  ∀ before event after, events = before ++ event :: after → event.changesFile = true →
    platform.fails (first + before.countP InotifyEvent.changesFile) = true →
    ∀ later ∈ after, later.notification = none

/-! ## Runs of the loop -/

theorem lastLoadSucceeded_concat (first : Nat) (events : List InotifyEvent) (event : InotifyEvent)
    (name : StdString) :
    LastLoadSucceeded platform first (events ++ [event]) name ↔
      if event.changesFile = true ∧ name = event.name then
        platform.fails (first + events.countP InotifyEvent.changesFile) = false
      else LastLoadSucceeded platform first events name := by
  by_cases changes : event.changesFile = true ∧ name = event.name
  · rw [if_pos changes]
    constructor
    · intro succeeded
      obtain ⟨before, found, after, split, _, _, last, loaded⟩ := succeeded
      rcases concat_eq_append_cons.mp split with ⟨rfl, _, _⟩ | ⟨middle, rfl, _⟩
      · exact loaded
      · exact absurd changes.2.symm (last event (by simp) changes.1)
    · exact fun loaded => ⟨events, event, [], by simp, changes.1, changes.2.symm, by simp, loaded⟩
  · rw [if_neg changes]
    constructor
    · intro succeeded
      obtain ⟨before, found, after, split, found_changes, named, last, loaded⟩ := succeeded
      rcases concat_eq_append_cons.mp split with ⟨_, rfl, _⟩ | ⟨middle, rfl, same⟩
      · exact absurd ⟨found_changes, named.symm⟩ changes
      · exact ⟨before, found, middle, same, found_changes, named, (forall_mem_concat.mp last).1, loaded⟩
    · intro succeeded
      obtain ⟨before, found, after, rfl, found_changes, named, last, loaded⟩ := succeeded
      refine ⟨before, found, after ++ [event], by simp, found_changes, named, ?_, loaded⟩
      exact forall_mem_concat.mpr ⟨last, fun event_changes same => changes ⟨event_changes, same.symm⟩⟩

theorem lastLoadSucceeded_append (first : Nat) (events after : List InotifyEvent)
    (silent : ∀ later ∈ after, later.changesFile = false) (name : StdString) :
    LastLoadSucceeded platform first (events ++ after) name ↔
      LastLoadSucceeded platform first events name := by
  induction after using List.reverseRecOn with
  | nil => simp
  | append_singleton after event ih =>
      have quiet : event.changesFile = false := silent event (by simp)
      rw [← List.append_assoc, lastLoadSucceeded_concat, quiet]
      simpa using ih fun later member => silent later (by simp [member])

structure Handled (events : List InotifyEvent) (after : PluginWatch) : Prop where
  notified : after.notified = w.notified ++ events.filterMap InotifyEvent.notification
  dlopens : after.loader.dlopens = w.loader.dlopens + events.countP InotifyEvent.changesFile
  plugins : ∀ name, name ∈ after.manager.plugins ↔ LastLoadSucceeded platform w.loader.dlopens events name ∨
    (∀ event ∈ events, event.changesFile = true → event.name ≠ name) ∧ name ∈ w.manager.plugins

variable {platform w}

theorem Handled.start : Handled platform w [] w where
  notified := by simp
  dlopens := by simp
  plugins name := by simp [LastLoadSucceeded]

theorem Handled.step {events : List InotifyEvent} {now : PluginWatch}
    (handled : Handled platform w events now) (event : InotifyEvent) :
    Handled platform w (events ++ [event])
      (Program.exec (PluginWatch.answer platform) (FileWatcher.handle event) now).2 := by
  obtain ⟨_, notified, dlopens, plugins⟩ := PluginWatch.handle_effect platform now event
  refine ⟨?_, ?_, fun name => ?_⟩
  · rw [notified, handled.notified, List.filterMap_append, List.append_assoc]
    cases found : event.notification <;> simp [found]
  · rw [dlopens, handled.dlopens]
    cases changes : event.changesFile <;> simp [changes, Nat.add_assoc]
  · rw [plugins, lastLoadSucceeded_concat, handled.dlopens]
    by_cases changes : event.changesFile = true ∧ name = event.name
    · rw [if_pos changes, if_pos changes]
      constructor
      · exact .inl
      · rintro (loaded | ⟨untouched, _⟩)
        · exact loaded
        · exact absurd changes.2.symm (untouched event (by simp) changes.1)
    · rw [if_neg changes, if_neg changes, handled.plugins]
      have untouched : event.changesFile = true → event.name ≠ name :=
        fun event_changes same => changes ⟨event_changes, same.symm⟩
      rw [forall_mem_concat, and_iff_left untouched]

/-- Either all events are handled and no load of them failed, or the events are handled up to the
first one whose load fails. -/
theorem handleBatch_cases (platform : Platform) (w : PluginWatch) (events : List InotifyEvent) :
    let done := Program.exec (PluginWatch.answer platform) (FileWatcher.handleBatch events) w
    ((∃ value, done.1 = .ok value) ∧ Handled platform w events done.2 ∧
      ∀ before event after, events = before ++ event :: after → event.changesFile = true →
        platform.fails (w.loader.dlopens + before.countP InotifyEvent.changesFile) = false) ∨
    ((∃ e, done.1 = .error e) ∧ ∃ before event after, events = before ++ event :: after ∧
      Handled platform w (before ++ [event]) done.2 ∧ event.changesFile = true ∧
      platform.fails (w.loader.dlopens + before.countP InotifyEvent.changesFile) = true ∧
      ∀ earlier found rest, before = earlier ++ found :: rest → found.changesFile = true →
        platform.fails (w.loader.dlopens + earlier.countP InotifyEvent.changesFile) = false) := by
  induction events using List.reverseRecOn with
  | nil => exact .inl ⟨⟨_, rfl⟩, Handled.start, by simp⟩
  | append_singleton events event ih =>
      rw [FileWatcher.handleBatch_append]
      generalize Program.exec (PluginWatch.answer platform) (FileWatcher.handleBatch events) w = done at ih ⊢
      rcases done with ⟨outcome, now⟩
      rcases ih with ⟨⟨value, ok⟩, handled, succeeded⟩ | ⟨⟨e, error⟩, before, failing, after, rfl, rest⟩
      · cases ok
        dsimp only
        rw [FileWatcher.handleBatch_singleton]
        have failed := (PluginWatch.handle_effect platform now event).1
        have stepped := handled.step event
        rw [handled.dlopens] at failed
        by_cases fails : event.changesFile = true ∧
            platform.fails (w.loader.dlopens + events.countP InotifyEvent.changesFile) = true
        · exact .inr ⟨failed.mpr fails, events, event, [], by simp, stepped, fails.1, fails.2, succeeded⟩
        · refine .inl ⟨?_, stepped, ?_⟩
          · cases outcome : (Program.exec (PluginWatch.answer platform) (FileWatcher.handle event) now).1 with
            | ok value => exact ⟨value, rfl⟩
            | error e => exact absurd (failed.mp ⟨e, outcome⟩) fails
          · intro before found after split changes
            rcases concat_eq_append_cons.mp split with ⟨rfl, rfl, _⟩ | ⟨middle, _, same⟩
            · simpa [changes] using fails
            · exact succeeded before found middle same changes
      · cases error
        exact .inr ⟨⟨e, rfl⟩, before, failing, after ++ [event], by simp, rest⟩

end

/-! ## Handling all events -/

theorem watched_eq (platform : Platform) (dir : StdString) (w : PluginWatch)
    (batches : List (List InotifyEvent)) :
    watched platform dir w batches =
      (Program.exec (PluginWatch.answer platform) (FileWatcher.handleBatch batches.flatten) w).2 := by
  rw [← FileWatcher.loop_batches]
  rfl

theorem handlesAll_of_handled {platform : Platform} {dir : StdString} {w : PluginWatch}
    {batches : List (List InotifyEvent)}
    (handled : Handled platform w batches.flatten (watched platform dir w batches)) :
    HandlesAll platform dir w batches where
  notified := handled.notified
  plugins event member changes := by
    rw [handled.plugins]
    constructor
    · rintro (loaded | ⟨untouched, _⟩)
      · exact loaded
      · exact absurd rfl (untouched event member changes)
    · exact .inl

theorem changesFile_of_silent {event : InotifyEvent} (silent : event.notification = none) :
    event.changesFile = false := by
  rw [event.changesFile_eq, silent]
  rfl

theorem Handled.append_silent {platform : Platform} {w after : PluginWatch} {events rest : List InotifyEvent}
    (handled : Handled platform w events after) (silent : ∀ later ∈ rest, later.notification = none) :
    Handled platform w (events ++ rest) after := by
  have quiet : ∀ later ∈ rest, later.changesFile = false :=
    fun later member => changesFile_of_silent (silent later member)
  refine ⟨?_, ?_, fun name => ?_⟩
  · rw [handled.notified, List.filterMap_append, List.filterMap_eq_nil_iff.mpr silent, List.append_nil]
  · have uncounted : rest.countP InotifyEvent.changesFile = 0 :=
      List.countP_eq_zero.mpr (by simpa using quiet)
    rw [handled.dlopens, List.countP_append, uncounted, Nat.add_zero]
  · rw [handled.plugins, lastLoadSucceeded_append platform _ _ _ quiet]
    have untouched : (∀ event ∈ events ++ rest, event.changesFile = true → event.name ≠ name) ↔
        ∀ event ∈ events, event.changesFile = true → event.name ≠ name := by
      simp only [List.mem_append, or_imp, forall_and, and_iff_left_iff_imp]
      intro _ event member changes
      rw [quiet event member] at changes
      contradiction
    rw [untouched]

theorem handlesAll_iff (platform : Platform) (dir : StdString) (w : PluginWatch)
    (batches : List (List InotifyEvent)) :
    HandlesAll platform dir w batches ↔ OnlyLastFails platform w.loader.dlopens batches.flatten := by
  have ended := handleBatch_cases platform w batches.flatten
  dsimp only at ended
  rw [← watched_eq platform dir] at ended
  rcases ended with ⟨_, handled, succeeded⟩ |
      ⟨_, before, event, after, split, handled, changes, fails, succeeded⟩
  · refine ⟨fun _ before event after split changes fails => ?_, fun _ => handlesAll_of_handled handled⟩
    rw [succeeded before event after split changes] at fails
    contradiction
  · -- the thread has ended with the load of `event`, so nothing in `after` has been handled
    have whole : batches.flatten = (before ++ [event]) ++ after := by simp [split]
    constructor
    · intro all before' event' after' split' changes' fails'
      have silent : ∀ later ∈ after, later.notification = none := by
        have notified := List.append_cancel_left (handled.notified.symm.trans all.notified)
        rw [whole, List.filterMap_append (l := before ++ [event]), List.self_eq_append_right] at notified
        exact List.filterMap_eq_nil_iff.mp notified
      rw [split] at split'
      rcases List.append_eq_append_iff.mp split' with ⟨middle, _, rest⟩ | ⟨middle, earlier, rest⟩ <;>
        rcases middle with _ | ⟨first, middle⟩ <;>
        simp only [List.nil_append, List.cons_append, List.cons.injEq] at rest
      · exact rest.2 ▸ silent
      · rw [changesFile_of_silent (silent event' (by simp [rest.2]))] at changes'
        contradiction
      · exact rest.2 ▸ silent
      · rw [← rest.1] at earlier
        rw [succeeded before' event' middle earlier changes'] at fails'
        contradiction
    · intro onlyLast
      refine handlesAll_of_handled ?_
      rw [whole]
      exact handled.append_silent (onlyLast before event after split changes fails)

/-! ## A load that fails -/

def created (name : StdString) : InotifyEvent := ⟨IN_CREATE, 16, name, by decide⟩

theorem failed_load_hides_events :
    ¬ HandlesAll ⟨fun call => call = 0, lit "file too short"⟩ (lit "./plugins") ⟨⟨∅, ∅⟩, ⟨[]⟩, []⟩
      [[created (lit "broken.so")], [created (lit "good.so")]] := by
  intro claim
  have notified := claim.notified
  revert notified
  decide

end SecureChat
