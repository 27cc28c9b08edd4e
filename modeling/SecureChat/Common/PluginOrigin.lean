import SecureChat.Common.PluginConstruction
import SecureChat.Common.Reload

/-!
# Where plugins come from

The constructor scans and watches the directory that it is given, while a plugin is always loaded
from `./plugins`.
-/

namespace SecureChat
open Library

def FileIn (fs : FileSystem) (dir : fs.Dir) (name path : StdString) : Prop :=
  ∃ place, path = place ++ lit "/" ++ name ∧ fs.directory place = some dir

/-- Every plugin that is registered was made from a library that was opened from the file of its
name in the directory. -/
def RegisteredFrom (fs : FileSystem) (dir : fs.Dir) (w : PluginWatch) : Prop :=
  ∀ (n : StdString) plugin, w.manager.plugins[n]? = some plugin →
    ∃ handle path, livePlugin w.loader.log plugin = some handle ∧
      openHandle w.loader.log handle = some path ∧ FileIn fs dir n path

theorem Owns.registeredFrom_iff {d : DynamicLoader} {w : PluginWatch} (owns : Owns d w.manager w.loader.log)
    (fs : FileSystem) (dir : fs.Dir) : RegisteredFrom fs dir w ↔
      fs.directory (lit "./plugins") = some dir ∨ ∀ n, n ∉ w.manager.plugins := by
  constructor
  · intro registered
    by_cases loaded : ∃ n, n ∈ w.manager.plugins
    · obtain ⟨n, loaded⟩ := loaded
      rw [QMap.mem_iff] at loaded
      obtain ⟨plugin, loaded⟩ := loaded
      obtain ⟨handle, path, live, isOpen, place, same, found⟩ := registered n plugin loaded
      obtain ⟨handle', held⟩ := owns.handle_of_plugin loaded
      rw [(owns.plugins plugin handle').mpr ⟨n, loaded, held⟩, Option.some.injEq] at live
      subst live
      rw [(owns.handles handle' _).mpr ⟨n, held, rfl⟩, Option.some.injEq] at isOpen
      have split : lit "./plugins/" = lit "./plugins" ++ lit "/" := by decide
      rw [← isOpen, split, List.append_cancel_right_eq, List.append_cancel_right_eq] at same
      exact .inl (same ▸ found)
    · exact .inr (not_exists.mp loaded)
  · intro same n plugin loaded
    rcases same with same | empty
    · obtain ⟨handle, held⟩ := owns.handle_of_plugin loaded
      exact ⟨handle, _, (owns.plugins plugin handle).mpr ⟨n, loaded, held⟩,
        (owns.handles handle _).mpr ⟨n, held, rfl⟩, lit "./plugins", rfl, same⟩
    · exact absurd ((QMap.mem_iff _ n).mpr ⟨plugin, loaded⟩) (empty n)

/-! ## Runs of the watcher -/

theorem PluginWatch.handle_owns (platform : Platform) {w : PluginWatch}
    (owns : Owns platform.loader w.manager w.loader.log) (event : InotifyEvent) :
    let after := (Program.exec (answer platform) (FileWatcher.handle event) w).2
    Owns platform.loader after.manager after.loader.log := by
  rw [exec_handle]
  cases event.notification with
  | none => exact owns
  | some n =>
      dsimp only
      rw [exec_callback]
      have kept := PluginManager.fileChanged_keeps platform.loader_fresh n.name n.isDir n.event _ _ owns
      simpa only [told, answer, PluginManager.exec_eq] using kept

theorem PluginWatch.handleBatch_owns (platform : Platform) {w : PluginWatch}
    (owns : Owns platform.loader w.manager w.loader.log) (events : List InotifyEvent) :
    let after := (Program.exec (answer platform) (FileWatcher.handleBatch events) w).2
    Owns platform.loader after.manager after.loader.log := by
  induction events generalizing w with
  | nil => exact owns
  | cons event rest ih =>
      have kept := handle_owns platform owns event
      simp only [FileWatcher.handleBatch, Program.exec_bind]
      generalize Program.exec (answer platform) (FileWatcher.handle event) w = done at kept
      rcases done with ⟨_ | _, after⟩
      · exact kept
      · exact ih kept

theorem PluginWatch.handleBatch_loads_nothing (platform : Platform) {w : PluginWatch} {events : List InotifyEvent}
    (quiet : platform.fails w.loader.dlopens = true ∨ ∀ event ∈ events, event.changesFile = false)
    (empty : ∀ n, n ∉ w.manager.plugins) (n : StdString) :
    n ∉ (Program.exec (answer platform) (FileWatcher.handleBatch events) w).2.manager.plugins := by
  induction events generalizing w with
  | nil => exact empty n
  | cons event rest ih =>
      obtain ⟨failed, _, dlopens, plugins⟩ := handle_effect platform w event
      simp only [FileWatcher.handleBatch, Program.exec_bind]
      generalize Program.exec (answer platform) (FileWatcher.handle event) w = done at failed dlopens plugins
      have still : ∀ n, n ∉ done.2.manager.plugins := by
        intro n member
        rw [plugins] at member
        split at member
        · next loads =>
            rcases quiet with fails | unchanged
            · rw [fails] at member
              contradiction
            · rw [unchanged event (by simp)] at loads
              exact absurd loads.1 (by simp)
        · exact empty n member
      rcases done with ⟨_ | _, after⟩
      · exact still n
      · refine ih ?_ still
        rcases quiet with fails | unchanged
        · have unchanged : event.changesFile = false := by simpa [fails] using failed
          rw [unchanged] at dlopens
          exact .inl (dlopens ▸ fails)
        · exact .inr fun later member => unchanged later (by simp [member])

/-! ## Plugins of the directory that was asked for -/

section
variable (platform : Platform) (fs : FileSystem) (plugin_dir : StdString) (events : List InotifyEvent)

/-- Once constructed, the manager has registered the regular files of its directory, and whatever it
has registered after any of the events comes from there. -/
def LoadsFromItsDirectory : Prop :=
  ∀ dir watched_dir manager l, fs.directory plugin_dir = some dir →
    PluginManager.exec platform (PluginManager.new fs plugin_dir) ⟨∅, ∅⟩ ⟨[]⟩ =
      (.ok watched_dir, manager, l) →
    (∀ n, n ∈ manager.plugins ↔ (n, .regular) ∈ fs.entries dir) ∧
    ∀ past rest, events = past ++ rest →
      RegisteredFrom fs dir (watched platform watched_dir ⟨manager, l, []⟩ [past])

/-- The directory is `./plugins`, or the construction throws, or nothing is ever loaded. -/
def LoadsAtHome : Prop :=
  ∀ dir, fs.directory plugin_dir = some dir →
    fs.directory (lit "./plugins") = some dir ∨
    (∃ i < (fs.regularFiles dir).length, platform.fails i = true) ∨
    (fs.regularFiles dir = [] ∧
      (platform.fails 0 = true ∨ ∀ event ∈ events, event.changesFile = false))

variable {platform fs plugin_dir events}

theorem new_eq_ok {dir : fs.Dir} (found : fs.directory plugin_dir = some dir) {watched_dir : StdString}
    {manager : PluginManager} {l : Loader} :
    PluginManager.exec platform (PluginManager.new fs plugin_dir) ⟨∅, ∅⟩ ⟨[]⟩ = (.ok watched_dir, manager, l) ↔
      plugin_dir = watched_dir ∧ PluginManager.exec platform
        (forM (fs.regularFiles dir) PluginManager.loadPlugin) ⟨∅, ∅⟩ ⟨[]⟩ = (.ok (), manager, l) := by
  rw [PluginManager.exec_new platform _ _ fs found]
  rcases PluginManager.exec platform (forM (fs.regularFiles dir) PluginManager.loadPlugin) ⟨∅, ∅⟩ ⟨[]⟩
    with ⟨_ | _, after, later⟩ <;> simp

theorem watched_one (platform : Platform) (dir : StdString) (w : PluginWatch) (past : List InotifyEvent) :
    watched platform dir w [past] =
      (Program.exec (PluginWatch.answer platform) (FileWatcher.handleBatch past) w).2 := by
  rw [watched_eq, List.flatten_singleton]

theorem first_change_loads (platform : Platform) {w : PluginWatch} {before : List InotifyEvent}
    {event : InotifyEvent} (unchanged : ∀ earlier ∈ before, earlier.changesFile = false)
    (changes : event.changesFile = true) (succeeds : platform.fails w.loader.dlopens = false) :
    event.name ∈ (Program.exec (PluginWatch.answer platform) (FileWatcher.handleBatch (before ++ [event]))
      w).2.manager.plugins := by
  have counted : before.countP InotifyEvent.changesFile = 0 := List.countP_eq_zero.mpr (by simpa using unchanged)
  rw [FileWatcher.handleBatch_append]
  rcases handleBatch_cases platform w before with
      ⟨⟨_, ended⟩, handled, _⟩ | ⟨_, first, failing, _, split, _, failing_changes, _⟩
  · generalize Program.exec (PluginWatch.answer platform) (FileWatcher.handleBatch before) w = done
      at ended handled ⊢
    obtain ⟨outcome, now⟩ := done
    dsimp only at ended
    rw [ended]
    dsimp only
    rw [FileWatcher.handleBatch_singleton]
    obtain ⟨_, _, _, plugins⟩ := PluginWatch.handle_effect platform now event
    rw [plugins, if_pos ⟨changes, rfl⟩, handled.dlopens, counted]
    exact succeeds
  · rw [unchanged failing (by simp [split])] at failing_changes
    contradiction

/-- Of the events, the first that changes a file decides: if its load fails the thread is over, and
if it succeeds there is a plugin. -/
private theorem watched_loads_nothing_iff (platform : Platform) (dir : StdString) {w : PluginWatch}
    (empty : ∀ n, n ∉ w.manager.plugins) (events : List InotifyEvent) :
    (∀ past rest, events = past ++ rest → ∀ n, n ∉ (watched platform dir w [past]).manager.plugins) ↔
      platform.fails w.loader.dlopens = true ∨ ∀ event ∈ events, event.changesFile = false := by
  constructor
  · intro still
    by_contra some_loads
    rw [not_or, Bool.not_eq_true] at some_loads
    obtain ⟨succeeds, some_changes⟩ := some_loads
    have changed : (events.find? InotifyEvent.changesFile).isSome := by
      rw [List.find?_isSome]
      by_contra unchanged
      exact some_changes fun event member => by simpa using fun changes => unchanged ⟨event, member, changes⟩
    obtain ⟨event, first⟩ := Option.isSome_iff_exists.mp changed
    obtain ⟨changes, before, after, split, unchanged⟩ := List.find?_eq_some_iff_append.mp first
    apply still (before ++ [event]) after (by simp [split]) event.name
    rw [watched_one]
    exact first_change_loads platform (by simpa using unchanged) changes succeeds
  · intro quiet past rest split n
    rw [watched_one]
    apply PluginWatch.handleBatch_loads_nothing platform _ empty
    exact quiet.imp id fun unchanged event member => unchanged event (by simp [split, member])

private theorem loadAll_nil {manager : PluginManager} {l : Loader}
    (ended : PluginManager.exec platform (forM [] PluginManager.loadPlugin) ⟨∅, ∅⟩ ⟨[]⟩ =
      (.ok (), manager, l)) : manager = ⟨∅, ∅⟩ ∧ l = ⟨[]⟩ := by
  rw [List.forM_nil, PluginManager.exec, Library.Method.exec_pure] at ended
  obtain ⟨_, rfl, rfl⟩ := ended
  exact ⟨rfl, rfl⟩

private theorem watched_registeredFrom_iff {dir : fs.Dir} {watched_dir : StdString} {manager : PluginManager}
    {l : Loader} (owns : Owns platform.loader manager l.log) (past : List InotifyEvent) :
    RegisteredFrom fs dir (watched platform watched_dir ⟨manager, l, []⟩ [past]) ↔
      fs.directory (lit "./plugins") = some dir ∨
      ∀ n, n ∉ (watched platform watched_dir ⟨manager, l, []⟩ [past]).manager.plugins := by
  rw [watched_one]
  exact (PluginWatch.handleBatch_owns platform (w := ⟨manager, l, []⟩) owns past).registeredFrom_iff fs dir

theorem loadsFromItsDirectory_iff (platform : Platform) (fs : FileSystem) (plugin_dir : StdString)
    (events : List InotifyEvent) : LoadsFromItsDirectory platform fs plugin_dir events ↔
      LoadsAtHome platform fs plugin_dir events := by
  refine forall_congr' fun dir => ?_
  have failed := PluginManager.loadAll_fails platform ⟨∅, ∅⟩ ⟨[]⟩ (fs.regularFiles dir)
  have owns := PluginManager.loadAll_owns platform (fs.regularFiles dir) (l := ⟨[]⟩) (.start platform.loader)
  have loaded := PluginManager.loadAll_loads platform ⟨∅, ∅⟩ ⟨[]⟩ (fs.regularFiles dir)
  constructor
  · intro loads found
    by_cases home : fs.directory (lit "./plugins") = some dir
    · exact .inl home
    rcases ended : PluginManager.exec platform (forM (fs.regularFiles dir) PluginManager.loadPlugin)
      ⟨∅, ∅⟩ ⟨[]⟩ with ⟨e | ⟨⟩, manager, l⟩ <;> rw [ended] at failed owns loaded
    · exact .inr (.inl (by simpa [Loader.dlopens] using failed))
    · obtain ⟨_, origins⟩ := loads plugin_dir manager l found ((new_eq_ok found).mpr ⟨rfl, ended⟩)
      have empty (past rest : List InotifyEvent) (split : events = past ++ rest) :=
        ((watched_registeredFrom_iff owns past).mp (origins past rest split)).resolve_left home
      have none_loaded : fs.regularFiles dir = [] := by
        refine List.eq_nil_iff_forall_not_mem.mpr fun n member => ?_
        apply empty [] events rfl n
        exact (loaded rfl n).mpr (.inl member)
      rw [none_loaded] at ended
      obtain ⟨rfl, rfl⟩ := loadAll_nil ended
      exact .inr (.inr ⟨none_loaded, (watched_loads_nothing_iff platform plugin_dir (by simp) events).mp empty⟩)
  · intro home watched_dir manager l found constructed
    obtain ⟨rfl, ended⟩ := (new_eq_ok found).mp constructed
    rw [ended] at failed owns loaded
    refine ⟨fun n => ?_, fun past rest split => ?_⟩
    · rw [loaded rfl n, fs.mem_regularFiles]
      simp
    · rw [watched_registeredFrom_iff owns past]
      rcases home found with same | throws | ⟨none_loaded, quiet⟩
      · exact .inl same
      · exact absurd throws (by simpa [Loader.dlopens] using failed)
      · rw [none_loaded] at ended
        obtain ⟨rfl, rfl⟩ := loadAll_nil ended
        exact .inr ((watched_loads_nothing_iff platform plugin_dir (w := ⟨⟨∅, ∅⟩, ⟨[]⟩, []⟩)
          (by simp) events).mpr quiet past rest split)

end

def twoDirectories : FileSystem where
  Dir := Bool
  directory path := if path = lit "./plugins" then some true
    else if path = lit "/opt/plugins" then some false else none
  entries _ := [(lit "a.so", .regular)]
  distinct _ := by decide

theorem loads_from_other_directory :
    ¬ LoadsFromItsDirectory reliable twoDirectories (lit "/opt/plugins") [] := by
  intro claim
  obtain ⟨registered, origins⟩ := claim false _ _ _ rfl rfl
  have owns := PluginManager.new_owns reliable.loader_fresh twoDirectories (lit "/opt/plugins")
  rw [← PluginManager.exec_eq] at owns
  rcases (Owns.registeredFrom_iff (w := ⟨_, _, []⟩) owns twoDirectories false).mp (origins [] [] rfl)
    with same | empty
  · have differ : some true = some false := same
    contradiction
  · exact empty (lit "a.so") ((registered (lit "a.so")).mpr (by decide))

end SecureChat
