import SecureChat.Common.PluginDirectory
import SecureChat.Common.PluginWatch

/-!
# The lifetime of plugins

Between the calls a manager owns what it has loaded: the open handles are the values of `handles`,
the plugin objects are those of `plugins`, and both are under the same names. Hence the destructor,
which destroys the plugins first and closes the handles then, gives everything back.
-/

namespace SecureChat
open Library

structure Owns (d : DynamicLoader) (manager : PluginManager) (log : List LoaderEvent) : Prop where
  orderly : Orderly log
  wrote : d.Wrote log
  keys : ∀ n, n ∈ manager.plugins ↔ n ∈ manager.handles
  handles : ∀ handle path, openHandle log handle = some path ↔
    ∃ n : StdString, manager.handles[n]? = some handle ∧ lit "./plugins/" ++ n = path
  plugins : ∀ plugin handle, livePlugin log plugin = some handle ↔
    ∃ n : StdString, manager.plugins[n]? = some plugin ∧ manager.handles[n]? = some handle

namespace Owns
variable {d : DynamicLoader} {manager : PluginManager} {log : List LoaderEvent}

theorem start (d : DynamicLoader) : Owns d ⟨∅, ∅⟩ [] where
  orderly := throughout_nil _
  wrote := throughout_nil _
  keys n := by simp
  handles handle path := by simp [openHandle, handleChanges]
  plugins plugin handle := by simp [livePlugin, pluginChanges]

theorem handle_of_plugin (owns : Owns d manager log) {n : StdString} {plugin : Pointer}
    (loaded : manager.plugins[n]? = some plugin) : ∃ handle, manager.handles[n]? = some handle := by
  rw [← QMap.mem_iff, ← owns.keys, QMap.mem_iff]
  exact ⟨plugin, loaded⟩

theorem handle_injective (owns : Owns d manager log) {n m : StdString} {handle : Pointer}
    (first : manager.handles[n]? = some handle) (second : manager.handles[m]? = some handle) : n = m := by
  have opened := (owns.handles handle _).mpr ⟨n, first, rfl⟩
  rw [(owns.handles handle _).mpr ⟨m, second, rfl⟩, Option.some.injEq, List.append_cancel_left_eq] at opened
  exact opened.symm

theorem plugin_injective (owns : Owns d manager log) {n m : StdString} {plugin : Pointer}
    (first : manager.plugins[n]? = some plugin) (second : manager.plugins[m]? = some plugin) : n = m := by
  obtain ⟨handle, opened⟩ := owns.handle_of_plugin first
  obtain ⟨handle', opened'⟩ := owns.handle_of_plugin second
  have live := (owns.plugins plugin _).mpr ⟨n, first, opened⟩
  rw [(owns.plugins plugin _).mpr ⟨m, second, opened'⟩, Option.some.injEq] at live
  subst live
  exact owns.handle_injective opened opened'

theorem notOpened (owns : Owns d manager log) {path : StdString} (failed : d.dlopen log path = none) :
    Owns d manager (log ++ [.notOpened path]) where
  orderly := throughout_concat.mpr ⟨owns.orderly, trivial⟩
  wrote := throughout_concat.mpr ⟨owns.wrote, failed⟩
  keys := owns.keys
  handles handle path := by rw [openHandle_concat]; exact owns.handles handle path
  plugins plugin handle := by rw [livePlugin_concat]; exact owns.plugins plugin handle

theorem erase (owns : Owns d manager log) {name : StdString} {plugin handle : Pointer}
    (loaded : manager.plugins[name]? = some plugin) (opened : manager.handles[name]? = some handle) :
    Owns d ⟨manager.plugins.erase name, manager.handles.erase name⟩
      (log ++ [.destroyed plugin] ++ [.closed handle]) where
  orderly := by
    have live := (owns.plugins plugin handle).mpr ⟨name, loaded, opened⟩
    have isOpen := (owns.handles handle _).mpr ⟨name, opened, rfl⟩
    refine throughout_concat.mpr ⟨throughout_concat.mpr ⟨owns.orderly, by simp [LoaderEvent.Orderly, live]⟩, ?_⟩
    refine ⟨by simp [openHandle_concat, isOpen], fun other => ?_⟩
    rw [livePlugin_concat]
    dsimp only
    split
    · simp
    · intro from_same
      obtain ⟨n, other_loaded, other_opened⟩ := (owns.plugins other handle).mp from_same
      rw [← owns.handle_injective opened other_opened, loaded] at other_loaded
      cases other_loaded
      contradiction
  wrote := throughout_concat.mpr ⟨throughout_concat.mpr ⟨owns.wrote, trivial⟩, trivial⟩
  keys n := by rw [QMap.mem_erase, QMap.mem_erase, owns.keys]
  handles other path := by
    have only (n : StdString) (found : manager.handles[n]? = some handle) := owns.handle_injective found opened
    rw [QMap.exists_erase opened only fun _ _ => Iff.rfl, ← owns.handles]
    simp only [openHandle_concat]
    split <;> simp [*]
  plugins other from_handle := by
    have only (n : StdString) (found : manager.plugins[n]? = some plugin) := owns.plugin_injective found loaded
    have handles (n : StdString) (differ : n ≠ name) : (manager.handles.erase name)[n]? = some from_handle ↔
        manager.handles[n]? = some from_handle := by
      rw [QMap.getElem?_erase, if_neg differ]
    rw [QMap.exists_erase loaded only handles, ← owns.plugins]
    simp only [livePlugin_concat]
    split <;> simp [*]

theorem insert (owns : Owns d manager log) {name : StdString} (absent : name ∉ manager.plugins)
    {handle plugin : Pointer} (opened : d.dlopen log (lit "./plugins/" ++ name) = some handle)
    (free : openHandle log handle = none)
    (made : d.makePlugin (log ++ [.opened (lit "./plugins/" ++ name) handle]) handle = plugin)
    (new : livePlugin log plugin = none) :
    Owns d ⟨manager.plugins.insert name plugin, manager.handles.insert name handle⟩
      (log ++ [.opened (lit "./plugins/" ++ name) handle] ++ [.made handle plugin]) where
  orderly := by
    refine throughout_concat.mpr ⟨throughout_concat.mpr ⟨owns.orderly, free⟩, ?_⟩
    simp [LoaderEvent.Orderly, openHandle_concat, livePlugin_concat, new]
  wrote := throughout_concat.mpr ⟨throughout_concat.mpr ⟨owns.wrote, opened⟩, made⟩
  keys n := by rw [QMap.mem_insert, QMap.mem_insert, owns.keys]
  handles other path := by
    have unused (n : StdString) : manager.handles[n]? ≠ some handle := by
      intro found
      rw [(owns.handles handle _).mpr ⟨n, found, rfl⟩] at free
      contradiction
    have absent : manager.handles[name]? = none := by
      rw [owns.keys] at absent
      simpa using absent
    rw [QMap.exists_insert absent unused fun _ _ => Iff.rfl, ← owns.handles]
    simp only [openHandle_concat]
    split <;> simp [*]
  plugins other from_handle := by
    have unused (n : StdString) : manager.plugins[n]? ≠ some plugin := by
      intro found
      obtain ⟨from_handle, found_handle⟩ := owns.handle_of_plugin found
      rw [(owns.plugins plugin _).mpr ⟨n, found, found_handle⟩] at new
      contradiction
    have absent : manager.plugins[name]? = none := by simpa using absent
    have handles (n : StdString) (differ : n ≠ name) :
        (manager.handles.insert name handle)[n]? = some from_handle ↔ manager.handles[n]? = some from_handle := by
      rw [QMap.getElem?_insert, if_neg differ]
    rw [QMap.exists_insert absent unused handles, ← owns.plugins, QMap.getElem?_insert, if_pos rfl]
    simp only [livePlugin_concat]
    split <;> simp [*]

end Owns

namespace PluginManager
variable {d : DynamicLoader} {self : PluginManager} {l : Loader}

theorem without_owns (owns : Owns d self l.log) (name : StdString) :
    Owns d (without self l name).1 (without self l name).2.log := by
  unfold without
  split
  · next loaded =>
      have found : self.plugins[name]? = some (self.plugins.getD name 0) :=
        Std.TreeMap.getElem?_eq_some_getD loaded
      have opened : self.handles[name]? = some (self.handles.getD name 0) :=
        Std.TreeMap.getElem?_eq_some_getD ((owns.keys name).mp loaded)
      simpa [Loader.record] using owns.erase found opened
  · exact owns

theorem loadPlugin_owns (fresh : d.Fresh) (owns : Owns d self l.log) (name : StdString) :
    let done := execWith d (loadPlugin name) self l
    Owns d done.2.1 done.2.2.log := by
  have owns := without_owns owns name
  have absent : name ∉ (without self l name).1.plugins := fun member =>
    ((mem_without self l name name).mp member).1 rfl
  rw [execWith_loadPlugin]
  generalize without self l name = removed at owns absent ⊢
  obtain ⟨self, l⟩ := removed
  dsimp only at owns absent ⊢
  cases found : d.dlopen l.log (lit "./plugins/" ++ name) with
  | none => exact owns.notOpened found
  | some handle =>
      have unopened (h : Pointer) : openHandle l.log h ≠ some (lit "./plugins/" ++ name) := by
        intro opened
        obtain ⟨n, held, same⟩ := (owns.handles h _).mp opened
        rw [List.append_cancel_left_eq] at same
        rw [owns.keys, QMap.mem_iff] at absent
        exact absent ⟨h, same ▸ held⟩
      have free := fresh.dlopen l.log _ handle owns.wrote unopened found
      have wrote : d.Wrote (l.log ++ [.opened (lit "./plugins/" ++ name) handle]) :=
        throughout_concat.mpr ⟨owns.wrote, found⟩
      have new := fresh.makePlugin _ handle wrote
      rw [livePlugin_concat] at new
      exact owns.insert absent found free rfl new

variable (d) in
abbrev KeepsOwning {α : Type} (m : Method α) : Prop :=
  Library.Method.Keeps d.answer (fun manager l => Owns d manager l.log) m

theorem removePlugin_keeps (name : StdString) : KeepsOwning d (removePlugin name) := by
  intro self l owns
  simpa only [execWith_removePlugin] using without_owns owns name

theorem loadPlugin_keeps (fresh : d.Fresh) (name : StdString) : KeepsOwning d (loadPlugin name) :=
  fun _ _ owns => loadPlugin_owns fresh owns name

theorem fileChanged_keeps (fresh : d.Fresh) (name : StdString) (isDir : Bool) (e : FileEvent) :
    KeepsOwning d (fileChanged name isDir e) := by
  unfold fileChanged
  split
  · split
    · exact loadPlugin_keeps fresh name
    · exact Library.Method.keeps_pure ()
  · exact Library.Method.keeps_pure ()

theorem loadEntries_keeps (fresh : d.Fresh) (entries : List (StdString × FileKind)) :
    KeepsOwning d (loadEntries entries) := by
  induction entries with
  | nil => exact Library.Method.keeps_pure ()
  | cons entry rest ih =>
      unfold loadEntries
      split
      · exact (loadPlugin_keeps fresh _).bind fun _ => ih
      · exact ih

theorem new_owns (fresh : d.Fresh) (fs : FileSystem) (plugin_dir : StdString) :
    let done := execWith d (new fs plugin_dir) ⟨∅, ∅⟩ ⟨[]⟩
    Owns d done.2.1 done.2.2.log := by
  have keeps : KeepsOwning d (new fs plugin_dir) := by
    unfold new
    split
    · exact Library.Method.keeps_throw _
    · exact (loadEntries_keeps fresh _).bind fun _ => Library.Method.keeps_pure plugin_dir
  exact keeps _ _ (Owns.start d)

/-! ## Other names -/

def SameEntry (n : StdString) (before after : PluginManager) : Prop :=
  after.plugins[n]? = before.plugins[n]? ∧ after.handles[n]? = before.handles[n]?

theorem SameEntry.refl (n : StdString) (self : PluginManager) : SameEntry n self self := ⟨rfl, rfl⟩

variable (d self l)

theorem without_other {name n : StdString} (other : n ≠ name) : SameEntry n self (without self l name).1 := by
  unfold without
  split
  · simp [SameEntry, QMap.getElem?_erase, other]
  · exact .refl n self

theorem loadPlugin_other {name n : StdString} (other : n ≠ name) :
    SameEntry n self (execWith d (loadPlugin name) self l).2.1 := by
  have same := without_other self l other
  rw [execWith_loadPlugin]
  generalize without self l name = removed at same ⊢
  obtain ⟨self, l⟩ := removed
  dsimp only at same ⊢
  cases d.dlopen l.log (lit "./plugins/" ++ name) with
  | none => exact same
  | some handle => simpa [SameEntry, QMap.getElem?_insert, other] using same

theorem fileChanged_other {name n : StdString} (other : n ≠ name) (isDir : Bool) (e : FileEvent) :
    SameEntry n self (execWith d (fileChanged name isDir e) self l).2.1 := by
  rw [execWith_fileChanged]
  split
  · exact loadPlugin_other d self l other
  · exact .refl n self

/-! ## The destructor -/

theorem execWith_destroyAll (plugins : List Pointer) : execWith d (forM plugins destroy) self l =
    (.ok (), self, l.record (plugins.map .destroyed)) := by
  induction plugins generalizing l with
  | nil => simp [Loader.record]
  | cons plugin rest ih => simp [ih, Loader.record]

theorem execWith_closeAll (handles : List Pointer) : execWith d (forM handles dlclose) self l =
    (.ok (), self, l.record (handles.map .closed)) := by
  induction handles generalizing l with
  | nil => simp [Loader.record]
  | cons handle rest ih => simp [ih, Loader.record]

theorem execWith_delete : execWith d delete self l = (.ok (), self,
    l.record (self.plugins.values.map .destroyed ++ self.handles.values.map .closed)) := by
  unfold delete
  simp [execWith_destroyAll, execWith_closeAll, Loader.record]

end PluginManager

structure GivesBack (log : List LoaderEvent) : Prop where
  plugins : Ledger.Paired (pluginChanges log)
  handles : Ledger.Paired (handleChanges log)
  inTime : DestroyedInTime log

theorem Owns.mem_plugins {d : DynamicLoader} {manager : PluginManager} {log : List LoaderEvent}
    (owns : Owns d manager log) (plugin : Pointer) :
    (livePlugin log plugin).isSome ↔ plugin ∈ manager.plugins.values := by
  rw [Option.isSome_iff_exists, QMap.mem_values]
  constructor
  · intro ⟨handle, live⟩
    obtain ⟨n, loaded, _⟩ := (owns.plugins plugin handle).mp live
    exact ⟨n, loaded⟩
  · intro ⟨n, loaded⟩
    obtain ⟨handle, opened⟩ := owns.handle_of_plugin loaded
    exact ⟨handle, (owns.plugins plugin handle).mpr ⟨n, loaded, opened⟩⟩

theorem Owns.mem_handles {d : DynamicLoader} {manager : PluginManager} {log : List LoaderEvent}
    (owns : Owns d manager log) (handle : Pointer) :
    (openHandle log handle).isSome ↔ handle ∈ manager.handles.values := by
  rw [Option.isSome_iff_exists, QMap.mem_values]
  constructor
  · intro ⟨path, isOpen⟩
    obtain ⟨n, held, _⟩ := (owns.handles handle path).mp isOpen
    exact ⟨n, held⟩
  · intro ⟨n, held⟩
    exact ⟨_, (owns.handles handle _).mpr ⟨n, held, rfl⟩⟩

theorem Owns.delete {d : DynamicLoader} {manager : PluginManager} {l : Loader} (owns : Owns d manager l.log) :
    GivesBack (PluginManager.execWith d PluginManager.delete manager l).2.2.log := by
  rw [PluginManager.execWith_delete, Loader.record, ← List.append_assoc]
  have plugins_nodup := QMap.values_nodup fun _ _ _ => owns.plugin_injective
  have handles_nodup := QMap.values_nodup fun _ _ _ => owns.handle_injective
  obtain ⟨orderly, plugin_left, handle_left⟩ := owns.orderly.destroyAll plugins_nodup
    fun plugin member => (owns.mem_plugins plugin).mpr member
  have unused (plugin : Pointer) :
      livePlugin (l.log ++ manager.plugins.values.map .destroyed) plugin = none := by
    rw [plugin_left]
    split
    · rfl
    · next absent => simpa [← owns.mem_plugins] using absent
  obtain ⟨orderly, handle_closed, unused⟩ := orderly.closeAll unused handles_nodup fun handle member => by
    rw [handle_left]
    exact (owns.mem_handles handle).mpr member
  refine ⟨orderly.plugins.paired unused, orderly.handles.paired fun handle => ?_, orderly.destroyedInTime⟩
  refine (handle_closed handle).trans ?_
  rw [handle_left]
  split
  · rfl
  · next absent => simpa [← owns.mem_handles] using absent

/-! ## Any sequence of calls -/

inductive PluginCall where
  | loadPlugin (plugin_name : StdString)
  | removePlugin (plugin_name : StdString)
  | fileChanged (name : StdString) (isDir : Bool) (e : FileEvent)

namespace PluginCall

def name : PluginCall → StdString
  | .loadPlugin plugin_name => plugin_name
  | .removePlugin plugin_name => plugin_name
  | .fileChanged name _ _ => name

def method : PluginCall → PluginManager.Method Unit
  | .loadPlugin plugin_name => PluginManager.loadPlugin plugin_name
  | .removePlugin plugin_name => PluginManager.removePlugin plugin_name
  | .fileChanged name isDir e => PluginManager.fileChanged name isDir e

variable (d : DynamicLoader)

def step (call : PluginCall) (now : PluginManager × Loader) :
    Except PluginException Unit × PluginManager × Loader :=
  PluginManager.execWith d call.method now.1 now.2

theorem step_owns {d : DynamicLoader} (fresh : d.Fresh) (call : PluginCall) {now : PluginManager × Loader}
    (owns : Owns d now.1 now.2.log) : Owns d (call.step d now).2.1 (call.step d now).2.2.log := by
  cases call with
  | loadPlugin plugin_name => exact PluginManager.loadPlugin_keeps fresh plugin_name _ _ owns
  | removePlugin plugin_name => exact PluginManager.removePlugin_keeps plugin_name _ _ owns
  | fileChanged name isDir e => exact PluginManager.fileChanged_keeps fresh name isDir e _ _ owns

theorem step_other (call : PluginCall) (now : PluginManager × Loader) {n : StdString} (other : n ≠ call.name) :
    PluginManager.SameEntry n now.1 (call.step d now).2.1 := by
  cases call with
  | loadPlugin plugin_name => exact PluginManager.loadPlugin_other d now.1 now.2 other
  | removePlugin plugin_name =>
      simp only [step, method, PluginManager.execWith_removePlugin]
      exact PluginManager.without_other now.1 now.2 other
  | fileChanged name isDir e => exact PluginManager.fileChanged_other d now.1 now.2 other isDir e

end PluginCall

/-- After the construction and any calls the manager is in step with what is open, the next call
leaves the other names alone, and the destructor gives everything back. -/
theorem plugins_given_back {d : DynamicLoader} (fresh : d.Fresh) (fs : FileSystem) {plugin_dir dir : StdString}
    {start : PluginManager × Loader}
    (constructed : PluginManager.execWith d (PluginManager.new fs plugin_dir) ⟨∅, ∅⟩ ⟨[]⟩ = (.ok dir, start))
    (calls : List PluginCall) :
    let now := final (PluginCall.step d) start calls
    (∀ n, n ∈ now.1.plugins ↔ n ∈ now.1.handles) ∧
    (∀ handle, (openHandle now.2.log handle).isSome ↔ handle ∈ now.1.handles.values) ∧
    (∀ (call : PluginCall) n, n ≠ call.name → PluginManager.SameEntry n now.1 (call.step d now).2.1) ∧
    ∃ after, PluginManager.execWith d PluginManager.delete now.1 now.2 = (.ok (), now.1, after) ∧
      GivesBack after.log := by
  have initially := PluginManager.new_owns fresh fs plugin_dir
  rw [constructed] at initially
  have owns := final_rule (PluginCall.step d) (fun now => Owns d now.1 now.2.log) initially
    (fun now call owns => call.step_owns fresh owns) calls
  refine ⟨owns.keys, owns.mem_handles, fun call n other => call.step_other d _ other, _,
    PluginManager.execWith_delete .., ?_⟩
  have given_back := owns.delete
  rw [PluginManager.execWith_delete] at given_back
  exact given_back

def onlyPlugins (files : List (StdString × FileKind)) (distinct : (files.map Prod.fst).Nodup) : FileSystem where
  Dir := Unit
  directory path := if path = lit "./plugins" then some () else none
  entries _ := files
  distinct _ := distinct

theorem plugins_given_back_two :
    let fs := onlyPlugins [(lit "a.so", .regular), (lit "old", .directory)] (by decide)
    let start := (PluginManager.execWith reliable.loader (PluginManager.new fs (lit "./plugins")) ⟨∅, ∅⟩ ⟨[]⟩).2
    let now := final (PluginCall.step reliable.loader) start
      [.fileChanged (lit "b.so") false .create, .fileChanged (lit "a.so") false .modify]
    (now.1.plugins.toList.map Prod.fst) = [lit "a.so", lit "b.so"] ∧
    ∃ after, PluginManager.execWith reliable.loader PluginManager.delete now.1 now.2 = (.ok (), now.1, after) ∧
      GivesBack after.log := by
  intro fs start now
  have constructed : PluginManager.execWith reliable.loader (PluginManager.new fs (lit "./plugins"))
      ⟨∅, ∅⟩ ⟨[]⟩ = (.ok (lit "./plugins"), start) := rfl
  exact ⟨by decide, (plugins_given_back reliable.loader_fresh fs constructed _).2.2.2⟩

end SecureChat
