import SecureChat.Common.PluginLifetime

/-!
# The construction of a plugin manager

A constructor that throws runs no destructor, so what it has loaded before a file that fails to
load stays behind.
-/

namespace SecureChat
open Library

namespace PluginManager
variable (platform : Platform) (self : PluginManager) (l : Loader)

theorem exec_bind {α β : Type} (m : Method α) (f : α → Method β) : exec platform (m >>= f) self l =
    match exec platform m self l with
    | (.ok value, self, l) => exec platform (f value) self l
    | (.error e, self, l) => (.error e, self, l) := by
  unfold exec
  rw [Library.Method.exec_bind]
  rcases Library.Method.exec platform.answer m self l with ⟨_ | _, after⟩ <;> rfl

theorem exec_loadEntries (entries : List (StdString × FileKind)) :
    exec platform (loadEntries entries) self l = exec platform
      (forM ((entries.filter fun entry => entry.2 = .regular).map Prod.fst) loadPlugin) self l := by
  induction entries generalizing self l with
  | nil => rfl
  | cons entry rest ih =>
      unfold loadEntries
      by_cases regular : entry.2 = .regular
      · rw [if_pos regular, List.filter_cons_of_pos (by simpa using regular), List.map_cons,
          List.forM_cons, exec_bind, exec_bind]
        simp only [ih]
      · rw [if_neg regular, List.filter_cons_of_neg (by simpa using regular)]
        exact ih self l

theorem exec_new (fs : FileSystem) {plugin_dir : StdString} {dir : fs.Dir}
    (found : fs.directory plugin_dir = some dir) : exec platform (new fs plugin_dir) self l =
      match exec platform (forM (fs.regularFiles dir) loadPlugin) self l with
      | (.ok _, self, l) => (.ok plugin_dir, self, l)
      | (.error e, self, l) => (.error e, self, l) := by
  unfold new
  rw [found]
  dsimp only
  rw [exec_bind, exec_loadEntries, FileSystem.regularFiles]
  rcases exec platform (forM _ loadPlugin) self l with ⟨_ | _, after⟩ <;> rfl

theorem new_eq_error (fs : FileSystem) {plugin_dir : StdString} {dir : fs.Dir}
    (found : fs.directory plugin_dir = some dir) {e : PluginException} {manager : PluginManager} {now : Loader} :
    exec platform (new fs plugin_dir) self l = (.error e, manager, now) ↔
      exec platform (forM (fs.regularFiles dir) loadPlugin) self l = (.error e, manager, now) := by
  rw [exec_new platform self l fs found]
  rcases exec platform (forM (fs.regularFiles dir) loadPlugin) self l with ⟨_ | _, after, later⟩ <;> simp

/-! ## Loading the files of a directory -/

theorem loadAll_fails (names : List StdString) :
    (∃ e, (exec platform (forM names loadPlugin) self l).1 = .error e) ↔
      ∃ i < names.length, platform.fails (l.dlopens + i) = true := by
  induction names generalizing self l with
  | nil => simp
  | cons name rest ih =>
      obtain ⟨failed, dlopens, _⟩ := load_effect platform self l name
      rw [List.forM_cons, exec_bind]
      generalize exec platform (loadPlugin name) self l = done at failed dlopens
      rcases done with ⟨_ | _, after, later⟩
      · have fails : platform.fails l.dlopens = true := failed.mp ⟨_, rfl⟩
        simp only [Except.error.injEq, exists_eq', true_iff]
        exact ⟨0, by simp, fails⟩
      · have succeeds : platform.fails l.dlopens = false := by simpa using failed
        refine (ih after later).trans ?_
        dsimp only at dlopens
        rw [dlopens, List.length_cons, Nat.exists_lt_succ_left]
        simp [succeeds, Nat.add_assoc, Nat.add_comm 1]

theorem loadAll_keeps (names : List StdString) {n : StdString} (other : n ∉ names) :
    SameEntry n self (exec platform (forM names loadPlugin) self l).2.1 := by
  induction names generalizing self l with
  | nil => exact .refl n self
  | cons name rest ih =>
      rw [List.mem_cons, not_or] at other
      have same := loadPlugin_other platform.loader self l other.1
      rw [← exec_eq] at same
      rw [List.forM_cons, exec_bind]
      generalize exec platform (loadPlugin name) self l = done at same
      rcases done with ⟨_ | _, after, later⟩
      · exact same
      · have kept := ih after later other.2
        exact ⟨kept.1.trans same.1, kept.2.trans same.2⟩

theorem loadAll_loads (names : List StdString) :
    (exec platform (forM names loadPlugin) self l).1 = .ok () →
      ∀ n, n ∈ (exec platform (forM names loadPlugin) self l).2.1.plugins ↔ n ∈ names ∨ n ∈ self.plugins := by
  induction names generalizing self l with
  | nil => simp
  | cons name rest ih =>
      obtain ⟨failed, _, plugins⟩ := load_effect platform self l name
      rw [List.forM_cons, exec_bind]
      generalize exec platform (loadPlugin name) self l = done at failed plugins
      rcases done with ⟨_ | _, after, later⟩
      · intro ended
        contradiction
      · intro ended n
        have succeeds : platform.fails l.dlopens = false := by simpa using failed
        rw [ih after later ended, plugins, List.mem_cons]
        by_cases same : n = name <;> simp [same, succeeds]

theorem loadAll_owns (names : List StdString) {self : PluginManager} {l : Loader}
    (owns : Owns platform.loader self l.log) :
    let done := exec platform (forM names loadPlugin) self l
    Owns platform.loader done.2.1 done.2.2.log := by
  have keeps : KeepsOwning platform.loader (forM names loadPlugin) := by
    induction names with
    | nil => exact Library.Method.keeps_pure ()
    | cons name rest ih =>
        rw [List.forM_cons]
        exact (loadPlugin_keeps platform.loader_fresh name).bind fun _ => ih
  rw [exec_eq]
  exact keeps self l owns

end PluginManager

/-! ## What a failed construction leaves behind -/

def NothingLeft (log : List LoaderEvent) : Prop :=
  (∀ handle, openHandle log handle = none) ∧ ∀ plugin, livePlugin log plugin = none

theorem Owns.nothing_loaded {d : DynamicLoader} {manager : PluginManager} {log : List LoaderEvent}
    (owns : Owns d manager log) (left : NothingLeft log) (n : StdString) : n ∉ manager.plugins := by
  rw [owns.keys, QMap.mem_iff]
  intro ⟨handle, held⟩
  have isOpen := (owns.handles handle _).mpr ⟨n, held, rfl⟩
  rw [left.1 handle] at isOpen
  contradiction

theorem PluginManager.loadAll_first (platform : Platform) (self : PluginManager) (l : Loader)
    {name : StdString} {rest : List StdString} (distinct : (name :: rest).Nodup)
    (succeeds : platform.fails l.dlopens = false) :
    name ∈ (exec platform (forM (name :: rest) loadPlugin) self l).2.1.plugins := by
  obtain ⟨failed, _, plugins⟩ := load_effect platform self l name
  rw [List.forM_cons, exec_bind]
  generalize exec platform (loadPlugin name) self l = done at failed plugins
  rcases done with ⟨_ | _, after, later⟩
  · rw [failed.mp ⟨_, rfl⟩] at succeeds
    contradiction
  · have loaded : name ∈ after.plugins := by
      rw [plugins, if_pos rfl]
      exact succeeds
    rw [QMap.mem_iff] at loaded ⊢
    obtain ⟨plugin, loaded⟩ := loaded
    exact ⟨plugin, (loadAll_keeps platform after later rest (List.nodup_cons.mp distinct).1).1.trans loaded⟩

theorem PluginManager.loadAll_first_fails (platform : Platform) (fails : platform.fails 0 = true)
    (names : List StdString) : NothingLeft (exec platform (forM names loadPlugin) ⟨∅, ∅⟩ ⟨[]⟩).2.2.log := by
  cases names with
  | nil => exact ⟨fun _ => rfl, fun _ => rfl⟩
  | cons name rest =>
      rw [List.forM_cons, exec_bind, exec_loadPlugin, removed_eq]
      simp only [without, Std.TreeMap.not_mem_emptyc, if_false, Loader.dlopens, List.countP_nil, fails, if_true]
      exact ⟨fun _ => rfl, fun _ => rfl⟩

section
variable (platform : Platform) (fs : FileSystem) (plugin_dir : StdString)

/-- A constructor that throws has given back everything that it acquired. -/
def CleansUp : Prop :=
  ∀ e manager l, PluginManager.exec platform (PluginManager.new fs plugin_dir) ⟨∅, ∅⟩ ⟨[]⟩ =
    (.error e, manager, l) → NothingLeft l.log

/-- If some regular file of the directory fails to load, then the first one that is loaded does. -/
def FirstFails : Prop :=
  ∀ dir, fs.directory plugin_dir = some dir →
    (∃ i < (fs.regularFiles dir).length, platform.fails i = true) → platform.fails 0 = true

theorem cleansUp_iff : CleansUp platform fs plugin_dir ↔ FirstFails platform fs plugin_dir := by
  constructor
  · intro cleans dir found fails
    by_contra first
    have failed := (PluginManager.loadAll_fails platform ⟨∅, ∅⟩ ⟨[]⟩ (fs.regularFiles dir)).mpr
      (by simpa [Loader.dlopens] using fails)
    have ended {e : PluginException} {manager : PluginManager} {l : Loader} :
        PluginManager.exec platform (PluginManager.new fs plugin_dir) ⟨∅, ∅⟩ ⟨[]⟩ = (.error e, manager, l) ↔ _ :=
      PluginManager.new_eq_error platform _ _ fs found
    have owns := PluginManager.loadAll_owns platform (fs.regularFiles dir) (l := ⟨[]⟩) (.start platform.loader)
    have distinct := fs.regularFiles_nodup dir
    cases files : fs.regularFiles dir with
    | nil => simp [files] at fails
    | cons name rest =>
        rw [files] at failed ended owns distinct
        have loaded := PluginManager.loadAll_first platform ⟨∅, ∅⟩ ⟨[]⟩ distinct
          (by simpa [Loader.dlopens] using first)
        obtain ⟨e, failed⟩ := failed
        exact owns.nothing_loaded (cleans e _ _ (ended.mpr (Prod.ext failed rfl))) name loaded
  · intro first e manager l ended
    cases found : fs.directory plugin_dir with
    | none =>
        unfold PluginManager.new at ended
        rw [found] at ended
        obtain ⟨_, _, rfl⟩ := ended
        exact ⟨fun _ => rfl, fun _ => rfl⟩
    | some dir =>
        rw [PluginManager.new_eq_error platform _ _ fs found] at ended
        have failed := (PluginManager.loadAll_fails platform ⟨∅, ∅⟩ ⟨[]⟩ (fs.regularFiles dir)).mp
          ⟨e, by rw [ended]⟩
        have fails := first dir found (by simpa [Loader.dlopens] using failed)
        have left := PluginManager.loadAll_first_fails platform fails (fs.regularFiles dir)
        rw [ended] at left
        exact left

end

theorem leaves_first_plugin : ¬ CleansUp ⟨fun call => call = 1, lit "file too short"⟩
    (onlyPlugins [(lit "a.so", .regular), (lit "b.so", .regular)] (by decide)) (lit "./plugins") := by
  intro claim
  have left := (claim _ _ _ rfl).1 1
  revert left
  decide

end SecureChat
