import SecureChat.Common.PluginManager
import SecureChat.Library.Ledger

/-!
# The dynamic loader

What `dlopen` and `make_plugin` return may depend on everything that was loaded and closed before.
The log of the calls tells which handles are open and which plugin objects there are.
-/

namespace SecureChat
open Library

inductive LoaderEvent where
  | opened (path : StdString) (handle : Pointer)
  | notOpened (path : StdString)
  | made (handle plugin : Pointer)
  | destroyed (plugin : Pointer)
  | closed (handle : Pointer)
  deriving DecidableEq

def LoaderEvent.isDlopen : LoaderEvent → Bool
  | .opened _ _ | .notOpened _ => true
  | _ => false

structure Loader where
  log : List LoaderEvent

def Loader.dlopens (l : Loader) : Nat := l.log.countP LoaderEvent.isDlopen

def Loader.record (l : Loader) (events : List LoaderEvent) : Loader := ⟨l.log ++ events⟩

theorem Loader.dlopens_record (l : Loader) (events : List LoaderEvent) :
    (l.record events).dlopens = l.dlopens + events.countP LoaderEvent.isDlopen :=
  List.countP_append

/-! ## Open handles and plugin objects -/

def LoaderEvent.handleChange : LoaderEvent → Option (Change Pointer StdString)
  | .opened path handle => some (.put handle path)
  | .closed handle => some (.drop handle)
  | _ => none

def LoaderEvent.pluginChange : LoaderEvent → Option (Change Pointer Pointer)
  | .made handle plugin => some (.put plugin handle)
  | .destroyed plugin => some (.drop plugin)
  | _ => none

def handleChanges (log : List LoaderEvent) : List (Change Pointer StdString) :=
  log.filterMap LoaderEvent.handleChange

def pluginChanges (log : List LoaderEvent) : List (Change Pointer Pointer) :=
  log.filterMap LoaderEvent.pluginChange

def openHandle (log : List LoaderEvent) (handle : Pointer) : Option StdString :=
  Ledger.replay (handleChanges log) handle

def livePlugin (log : List LoaderEvent) (plugin : Pointer) : Option Pointer :=
  Ledger.replay (pluginChanges log) plugin

@[simp] theorem handleChanges_concat (log : List LoaderEvent) (e : LoaderEvent) :
    handleChanges (log ++ [e]) = handleChanges log ++ e.handleChange.toList := by
  cases change : e.handleChange <;> simp [handleChanges, change]

@[simp] theorem pluginChanges_concat (log : List LoaderEvent) (e : LoaderEvent) :
    pluginChanges (log ++ [e]) = pluginChanges log ++ e.pluginChange.toList := by
  cases change : e.pluginChange <;> simp [pluginChanges, change]

theorem openHandle_concat (log : List LoaderEvent) (e : LoaderEvent) (handle : Pointer) :
    openHandle (log ++ [e]) handle = match e with
      | .opened path opened => if handle = opened then some path else openHandle log handle
      | .closed closed => if handle = closed then none else openHandle log handle
      | _ => openHandle log handle := by
  cases e <;> simp [openHandle, LoaderEvent.handleChange]

theorem livePlugin_concat (log : List LoaderEvent) (e : LoaderEvent) (plugin : Pointer) :
    livePlugin (log ++ [e]) plugin = match e with
      | .made handle made => if plugin = made then some handle else livePlugin log plugin
      | .destroyed destroyed => if plugin = destroyed then none else livePlugin log plugin
      | _ => livePlugin log plugin := by
  cases e <;> simp [livePlugin, LoaderEvent.pluginChange]

theorem mem_of_openHandle {log : List LoaderEvent} {handle : Pointer} {path : StdString}
    (isOpen : openHandle log handle = some path) : .opened path handle ∈ log := by
  obtain ⟨first, rest, split, _⟩ := Ledger.replay_eq_some isOpen
  have put : .put handle path ∈ handleChanges log := by simp [split]
  obtain ⟨e, member, change⟩ := List.mem_filterMap.mp put
  cases e <;> simp [LoaderEvent.handleChange] at change
  obtain ⟨rfl, rfl⟩ := change
  exact member

theorem mem_of_livePlugin {log : List LoaderEvent} {plugin handle : Pointer}
    (live : livePlugin log plugin = some handle) : .made handle plugin ∈ log := by
  obtain ⟨first, rest, split, _⟩ := Ledger.replay_eq_some live
  have put : .put plugin handle ∈ pluginChanges log := by simp [split]
  obtain ⟨e, member, change⟩ := List.mem_filterMap.mp put
  cases e <;> simp [LoaderEvent.pluginChange] at change
  obtain ⟨rfl, rfl⟩ := change
  exact member

/-! ## Orderly logs -/

/-- Handles and objects are taken while they are free and given back while they are taken, a plugin
is made from an open library, and a library is closed when no plugin of it is left. -/
def LoaderEvent.Orderly (log : List LoaderEvent) : LoaderEvent → Prop
  | .opened _ handle => openHandle log handle = none
  | .notOpened _ => True
  | .made handle plugin => (openHandle log handle).isSome ∧ livePlugin log plugin = none
  | .destroyed plugin => (livePlugin log plugin).isSome
  | .closed handle => (openHandle log handle).isSome ∧ ∀ plugin, livePlugin log plugin ≠ some handle

abbrev Orderly (log : List LoaderEvent) : Prop := Throughout LoaderEvent.Orderly log

/-- The object was made last from a library that was open then and has not been closed since. -/
def Backed (log : List LoaderEvent) (plugin handle : Pointer) : Prop :=
  ∃ start mid, log = start ++ .made handle plugin :: mid ∧ (openHandle start handle).isSome ∧
    .closed handle ∉ mid ∧ ∀ e ∈ mid, e ≠ .destroyed plugin ∧ ∀ other, e ≠ .made other plugin

def DestroyedInTime (log : List LoaderEvent) : Prop :=
  ∀ first plugin rest, log = first ++ .destroyed plugin :: rest → ∃ handle, Backed first plugin handle

/-- What the entries of an orderly log change is admitted, if each entry only makes an admitted change. -/
theorem Orderly.changes {κ γ : Type} [DecidableEq κ] {change : LoaderEvent → Option (Change κ γ)}
    (admits : ∀ log e c, e.Orderly log → change e = some c → Ledger.Admits (log.filterMap change) c)
    {log : List LoaderEvent} (orderly : Orderly log) : Ledger.Strict (log.filterMap change) := by
  induction log using List.reverseRecOn with
  | nil => exact throughout_nil _
  | append_singleton log e ih =>
      obtain ⟨earlier, last⟩ := throughout_concat.mp orderly
      rw [List.filterMap_append]
      cases changed : change e with
      | none => simpa [changed] using ih earlier
      | some c =>
          rw [List.filterMap_cons_some changed]
          exact throughout_concat.mpr ⟨ih earlier, admits log e c last changed⟩

theorem Orderly.handles {log : List LoaderEvent} (orderly : Orderly log) :
    Ledger.Strict (handleChanges log) := by
  refine orderly.changes fun log e c last changed => ?_
  cases e with
  | opened path handle =>
      cases changed
      exact last
  | closed handle =>
      cases changed
      exact last.1
  | _ => contradiction

theorem Orderly.plugins {log : List LoaderEvent} (orderly : Orderly log) :
    Ledger.Strict (pluginChanges log) := by
  refine orderly.changes fun log e c last changed => ?_
  cases e with
  | made handle plugin =>
      cases changed
      exact last.2
  | destroyed plugin =>
      cases changed
      exact last
  | _ => contradiction

theorem Orderly.backed {log : List LoaderEvent} (orderly : Orderly log) {plugin handle : Pointer}
    (live : livePlugin log plugin = some handle) : Backed log plugin handle := by
  induction log using List.reverseRecOn with
  | nil => contradiction
  | append_singleton log e ih =>
      obtain ⟨earlier, last⟩ := throughout_concat.mp orderly
      have extend (before : livePlugin log plugin = some handle) (kept : .closed handle ≠ e)
          (spared : e ≠ .destroyed plugin ∧ ∀ other, e ≠ .made other plugin) :
          Backed (log ++ [e]) plugin handle := by
        obtain ⟨start, mid, rfl, opened, unclosed, untouched⟩ := ih earlier before
        exact ⟨start, mid ++ [e], by simp, opened, by simp [unclosed, kept],
          forall_mem_concat.mpr ⟨untouched, spared⟩⟩
      rw [livePlugin_concat] at live
      cases e with
      | made h made =>
          dsimp only at live
          by_cases same : plugin = made
          · rw [if_pos same, Option.some.injEq] at live
            subst live same
            exact ⟨log, [], rfl, last.1, by simp, by simp⟩
          · rw [if_neg same] at live
            exact extend live (by simp) ⟨by simp, by simpa using Ne.symm same⟩
      | destroyed destroyed =>
          dsimp only at live
          by_cases same : plugin = destroyed
          · rw [if_pos same] at live
            contradiction
          · rw [if_neg same] at live
            exact extend live (by simp) ⟨by simpa using Ne.symm same, by simp⟩
      | closed closed =>
          have other : handle ≠ closed := by
            rintro rfl
            exact last.2 plugin live
          exact extend live (by simpa using other) ⟨by simp, by simp⟩
      | _ => exact extend live (by simp) ⟨by simp, by simp⟩

theorem Orderly.destroyedInTime {log : List LoaderEvent} (orderly : Orderly log) : DestroyedInTime log := by
  intro first plugin rest split
  have live : (livePlugin first plugin).isSome := orderly first (.destroyed plugin) rest split
  obtain ⟨handle, live⟩ := Option.isSome_iff_exists.mp live
  have earlier : Orderly first := fun start e mid same =>
    orderly start e (mid ++ .destroyed plugin :: rest) (by simp [split, same])
  exact ⟨handle, earlier.backed live⟩

theorem Orderly.destroyAll {log : List LoaderEvent} (orderly : Orderly log) {plugins : List Pointer}
    (distinct : plugins.Nodup) (live : ∀ plugin ∈ plugins, (livePlugin log plugin).isSome) :
    Orderly (log ++ plugins.map .destroyed) ∧
    (∀ plugin, livePlugin (log ++ plugins.map .destroyed) plugin =
      if plugin ∈ plugins then none else livePlugin log plugin) ∧
    ∀ handle, openHandle (log ++ plugins.map .destroyed) handle = openHandle log handle := by
  induction plugins using List.reverseRecOn with
  | nil => simpa using orderly
  | append_singleton plugins last ih =>
      obtain ⟨distinct, _, new⟩ := List.nodup_append.mp distinct
      obtain ⟨live, last_live⟩ := forall_mem_concat.mp live
      obtain ⟨orderly, plugin_left, handle_left⟩ := ih distinct live
      have absent : last ∉ plugins := fun member => new last member last (by simp) rfl
      simp only [List.map_append, List.map_cons, List.map_nil, ← List.append_assoc, livePlugin_concat,
        openHandle_concat]
      refine ⟨throughout_concat.mpr ⟨orderly, ?_⟩, fun plugin => ?_, handle_left⟩
      · rw [LoaderEvent.Orderly, plugin_left, if_neg absent]
        exact last_live
      · rw [plugin_left]
        by_cases same : plugin = last <;> simp [same]

theorem Orderly.closeAll {log : List LoaderEvent} (orderly : Orderly log)
    (unused : ∀ plugin, livePlugin log plugin = none) {handles : List Pointer} (distinct : handles.Nodup)
    (opened : ∀ handle ∈ handles, (openHandle log handle).isSome) :
    Orderly (log ++ handles.map .closed) ∧
    (∀ handle, openHandle (log ++ handles.map .closed) handle =
      if handle ∈ handles then none else openHandle log handle) ∧
    ∀ plugin, livePlugin (log ++ handles.map .closed) plugin = none := by
  induction handles using List.reverseRecOn with
  | nil => simpa using ⟨orderly, unused⟩
  | append_singleton handles last ih =>
      obtain ⟨distinct, _, new⟩ := List.nodup_append.mp distinct
      obtain ⟨opened, last_open⟩ := forall_mem_concat.mp opened
      obtain ⟨orderly, handle_left, plugin_left⟩ := ih distinct opened
      have absent : last ∉ handles := fun member => new last member last (by simp) rfl
      simp only [List.map_append, List.map_cons, List.map_nil, ← List.append_assoc, livePlugin_concat,
        openHandle_concat]
      refine ⟨throughout_concat.mpr ⟨orderly, ?_⟩, fun handle => ?_, plugin_left⟩
      · rw [LoaderEvent.Orderly, handle_left, if_neg absent]
        exact ⟨last_open, fun plugin => by simp [plugin_left]⟩
      · rw [handle_left]
        by_cases same : handle = last <;> simp [same]

/-! ## The answers of a loader -/

structure DynamicLoader where
  dlopen : List LoaderEvent → StdString → Option Pointer
  dlerror : List LoaderEvent → StdString
  makePlugin : List LoaderEvent → Pointer → Pointer

def LoaderEvent.WrittenBy (d : DynamicLoader) (log : List LoaderEvent) : LoaderEvent → Prop
  | .opened path handle => d.dlopen log path = some handle
  | .notOpened path => d.dlopen log path = none
  | .made handle plugin => d.makePlugin log handle = plugin
  | .destroyed _ | .closed _ => True

namespace DynamicLoader

abbrev Wrote (d : DynamicLoader) (log : List LoaderEvent) : Prop := Throughout (LoaderEvent.WrittenBy d) log

/-- A path that is not open gives a handle that is not open, and every plugin is a new object. -/
structure Fresh (d : DynamicLoader) : Prop where
  dlopen : ∀ log path handle, d.Wrote log → (∀ h, openHandle log h ≠ some path) →
    d.dlopen log path = some handle → openHandle log handle = none
  makePlugin : ∀ log handle, d.Wrote log → livePlugin log (d.makePlugin log handle) = none

def answer (d : DynamicLoader) : (r : PluginRequest) → Loader → r.Reply × Loader
  | .dlopen path, l => match d.dlopen l.log path with
      | none => (none, l.record [.notOpened path])
      | some handle => (some handle, l.record [.opened path handle])
  | .dlerror, l => (d.dlerror l.log, l)
  | .makePlugin handle, l =>
      (d.makePlugin l.log handle, l.record [.made handle (d.makePlugin l.log handle)])
  | .destroy plugin, l => ((), l.record [.destroyed plugin])
  | .dlclose handle, l => ((), l.record [.closed handle])

end DynamicLoader

namespace PluginManager
variable (d : DynamicLoader) (self : PluginManager) (l : Loader)

abbrev execWith {α : Type} (m : Method α) (self : PluginManager) (l : Loader) :
    Except PluginException α × PluginManager × Loader :=
  Library.Method.exec d.answer m self l

@[simp] theorem execWith_dlopen (path : StdString) : execWith d (dlopen path) self l =
    match d.dlopen l.log path with
    | none => (.ok none, self, l.record [.notOpened path])
    | some handle => (.ok (some handle), self, l.record [.opened path handle]) := by
  have asked : execWith d (dlopen path) self l =
    (.ok (d.answer (.dlopen path) l).1, self, (d.answer (.dlopen path) l).2) := rfl
  rw [asked, DynamicLoader.answer]
  cases d.dlopen l.log path <;> rfl

@[simp] theorem execWith_dlerror :
    execWith d dlerror self l = (.ok (d.dlerror l.log), self, l) := rfl

@[simp] theorem execWith_makePlugin (handle : Pointer) : execWith d (makePlugin handle) self l =
    (.ok (d.makePlugin l.log handle), self,
      l.record [.made handle (d.makePlugin l.log handle)]) := rfl

@[simp] theorem execWith_destroy (plugin : Pointer) : execWith d (destroy plugin) self l =
    (.ok (), self, l.record [.destroyed plugin]) := rfl

@[simp] theorem execWith_dlclose (handle : Pointer) : execWith d (dlclose handle) self l =
    (.ok (), self, l.record [.closed handle]) := rfl

/-! ## What each method does -/

def without (self : PluginManager) (l : Loader) (name : StdString) : PluginManager × Loader :=
  if name ∈ self.plugins then
    (⟨self.plugins.erase name, self.handles.erase name⟩,
      l.record [.destroyed (self.plugins.getD name 0), .closed (self.handles.getD name 0)])
  else (self, l)

theorem execWith_removePlugin (name : StdString) :
    execWith d (removePlugin name) self l = (.ok (), without self l name) := by
  unfold removePlugin without
  by_cases loaded : name ∈ self.plugins <;> simp [loaded, Loader.record]

theorem execWith_loadPlugin (name : StdString) : execWith d (loadPlugin name) self l =
    let path := lit "./plugins/" ++ name
    let (self, l) := without self l name
    match d.dlopen l.log path with
    | none =>
        let failed := l.record [.notOpened path]
        (.error ⟨lit "failed to load plugin from " ++ path ++ lit ": " ++ d.dlerror failed.log⟩, self, failed)
    | some handle =>
        let opened := l.record [.opened path handle]
        let plugin := d.makePlugin opened.log handle
        (.ok (), ⟨self.plugins.insert name plugin, self.handles.insert name handle⟩,
          opened.record [.made handle plugin]) := by
  unfold loadPlugin
  simp only [Library.Method.exec_bind, execWith_removePlugin]
  rcases without self l name with ⟨self, l⟩
  cases found : d.dlopen l.log (lit "./plugins/" ++ name) <;> simp [found]

theorem execWith_fileChanged (name : StdString) (isDir : Bool) (e : FileEvent) :
    execWith d (fileChanged name isDir e) self l =
      if isDir = false ∧ (e = .create ∨ e = .modify) then execWith d (loadPlugin name) self l
      else (.ok (), self, l) := by
  unfold fileChanged
  cases isDir <;> cases e <;> simp

theorem mem_without (name n : StdString) :
    n ∈ (without self l name).1.plugins ↔ n ≠ name ∧ n ∈ self.plugins := by
  unfold without
  by_cases loaded : name ∈ self.plugins
  · rw [if_pos loaded]
    exact QMap.mem_erase ..
  · rw [if_neg loaded]
    refine ⟨fun member => ⟨?_, member⟩, And.right⟩
    intro same
    exact loaded (same ▸ member)

end PluginManager
end SecureChat
