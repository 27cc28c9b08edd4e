import SecureChat.Common.DynamicLoader
import SecureChat.Common.FileWatcher

/-!
# Plugins under watch

A watcher whose callback is the `fileChanged` of a plugin manager, and a dynamic loader any of
whose `dlopen` calls may fail. The first load that fails ends the watcher's thread, so the plugins
are what their last events say exactly when no load fails that another event follows.
-/

namespace SecureChat
open Library

/-! ## The dynamic loader -/

def Loader.fresh (l : Loader) : Pointer := l.log.length + 1

/-- Which calls of `dlopen` fail, counted from 0, and what `dlerror` says then. -/
structure Platform where
  fails : Nat → Bool
  error : StdString

def Platform.answer (platform : Platform) : (r : PluginRequest) → Loader → r.Reply × Loader
  | .dlopen path, l =>
      if platform.fails l.dlopens then (none, l.record [.notOpened path])
      else (some l.fresh, l.record [.opened path l.fresh])
  | .dlerror, l => (platform.error, l)
  | .makePlugin handle, l => (l.fresh, l.record [.made handle l.fresh])
  | .destroy plugin, l => ((), l.record [.destroyed plugin])
  | .dlclose handle, l => ((), l.record [.closed handle])

def Platform.loader (platform : Platform) : DynamicLoader where
  dlopen log _ := if platform.fails (Loader.mk log).dlopens then none else some (Loader.mk log).fresh
  dlerror _ := platform.error
  makePlugin log _ := (Loader.mk log).fresh

theorem Platform.loader_fresh (platform : Platform) : platform.loader.Fresh where
  dlopen log path handle wrote _ opened := by
    have new : handle = log.length + 1 := by
      simp only [Platform.loader] at opened
      split at opened <;> simp_all [Loader.fresh]
    refine Option.eq_none_iff_forall_ne_some.mpr fun earlier isOpen => ?_
    obtain ⟨first, rest, split⟩ := List.append_of_mem (mem_of_openHandle isOpen)
    have shorter : first.length < log.length := by
      rw [split]
      simp
    have old := wrote first _ rest split
    simp only [LoaderEvent.WrittenBy, Platform.loader] at old
    split at old
    · contradiction
    · have same : first.length + 1 = log.length + 1 := (Option.some.inj old).trans new
      omega
  makePlugin log handle wrote := by
    refine Option.eq_none_iff_forall_ne_some.mpr fun earlier live => ?_
    obtain ⟨first, rest, split⟩ := List.append_of_mem (mem_of_livePlugin live)
    have shorter : first.length < log.length := by
      rw [split]
      simp
    have same : first.length + 1 = log.length + 1 := wrote first _ rest split
    omega

theorem Platform.answer_eq (platform : Platform) : platform.answer = platform.loader.answer := by
  funext r l
  cases r with
  | dlopen path =>
      simp only [Platform.answer, DynamicLoader.answer, Platform.loader]
      split <;> rfl
  | _ => rfl

namespace PluginManager
variable (platform : Platform) (self : PluginManager) (l : Loader)

abbrev exec {α : Type} (m : Method α) (self : PluginManager) (l : Loader) :
    Except PluginException α × PluginManager × Loader :=
  Library.Method.exec platform.answer m self l

theorem exec_eq {α : Type} (m : Method α) : exec platform m self l = execWith platform.loader m self l := by
  unfold exec
  rw [platform.answer_eq]

def removed (name : StdString) : PluginManager × Loader := (exec platform (removePlugin name) self l).2

theorem removed_eq (name : StdString) : removed platform self l name = without self l name := by
  rw [removed, exec_eq, execWith_removePlugin]

theorem exec_loadPlugin (name : StdString) : exec platform (loadPlugin name) self l =
    let path := lit "./plugins/" ++ name
    let (self, l) := removed platform self l name
    if platform.fails l.dlopens then
      (.error ⟨lit "failed to load plugin from " ++ path ++ lit ": " ++ platform.error⟩, self,
        l.record [.notOpened path])
    else
      let plugin := (l.record [.opened path l.fresh]).fresh
      (.ok (), ⟨self.plugins.insert name plugin, self.handles.insert name l.fresh⟩,
        l.record [.opened path l.fresh, .made l.fresh plugin]) := by
  rw [removed_eq, exec_eq, execWith_loadPlugin]
  rcases without self l name with ⟨self, l⟩
  by_cases fails : platform.fails l.dlopens <;> simp [Platform.loader, fails, Loader.record]

theorem without_dlopens (name : StdString) : (without self l name).2.dlopens = l.dlopens := by
  unfold without
  split
  · exact Loader.dlopens_record ..
  · rfl

theorem load_effect (name : StdString) :
    let ended := exec platform (loadPlugin name) self l
    ((∃ e, ended.1 = .error e) ↔ platform.fails l.dlopens = true) ∧ ended.2.2.dlopens = l.dlopens + 1 ∧
    ∀ n, n ∈ ended.2.1.plugins ↔ if n = name then platform.fails l.dlopens = false else n ∈ self.plugins := by
  have dlopens := without_dlopens self l name
  have plugins := mem_without self l name
  rw [exec_loadPlugin, removed_eq]
  generalize without self l name = removed at dlopens plugins
  rcases removed with ⟨self', l'⟩
  dsimp only at dlopens plugins ⊢
  rw [← dlopens]
  by_cases fails : platform.fails l'.dlopens
  · simp only [fails, ↓reduceIte]
    refine ⟨by simp, Loader.dlopens_record .., fun n => ?_⟩
    by_cases same : n = name <;> simp [plugins, same]
  · simp only [fails, Bool.false_eq_true, ↓reduceIte]
    refine ⟨by simp, Loader.dlopens_record .., fun n => ?_⟩
    rw [QMap.mem_insert, plugins]
    by_cases same : n = name <;> simp [same]

theorem exec_fileChanged (name : StdString) (isDir : Bool) (e : FileEvent) :
    exec platform (fileChanged name isDir e) self l =
      if isDir = false ∧ (e = .create ∨ e = .modify) then exec platform (loadPlugin name) self l
      else (.ok (), self, l) := by
  simp only [exec_eq, execWith_fileChanged]

end PluginManager

/-! ## The watcher's callback -/

def Notification.changesFile (n : Notification) : Bool :=
  !n.isDir && (n.event = .create ∨ n.event = .modify)

namespace InotifyEvent

def changesFile (event : InotifyEvent) : Bool :=
  event.len != 0 && !UInt32.has event.mask IN_ISDIR &&
    (UInt32.has event.mask IN_CREATE || UInt32.has event.mask IN_MODIFY)

theorem changesFile_eq (event : InotifyEvent) :
    event.changesFile = event.notification.any Notification.changesFile := by
  have oneKind := event.oneKind
  unfold changesFile notification Notification.changesFile
  by_cases unnamed : event.len = 0
  · simp [unnamed]
  cases created : UInt32.has event.mask IN_CREATE <;> cases deleted : UInt32.has event.mask IN_DELETE <;>
    cases modified : UInt32.has event.mask IN_MODIFY <;> simp_all

end InotifyEvent

structure PluginWatch where
  manager : PluginManager
  loader : Loader
  notified : List Notification

namespace PluginWatch

def answer (platform : Platform) : (r : WatchRequest) → PluginWatch → r.Reply PluginException × PluginWatch
  | .callback name isDir e, w =>
      let (ended, manager, loader) :=
        PluginManager.exec platform (PluginManager.fileChanged name isDir e) w.manager w.loader
      (ended, ⟨manager, loader, w.notified ++ [⟨name, isDir, e⟩]⟩)
  | .inotify_init, w => ((3 : Int), w)
  | .inotify_add_watch _ _, w => ((), w)
  | .inotify_rm_watch, w => ((), w)
  | .close, w => ((), w)

variable (platform : Platform) (w : PluginWatch)

def told (n : Notification) : Except PluginException Unit × PluginWatch :=
  answer platform (.callback n.name n.isDir n.event) w

theorem told_effect (n : Notification) :
    let done := told platform w n
    ((∃ e, done.1 = .error e) ↔ n.changesFile = true ∧ platform.fails w.loader.dlopens = true) ∧
    done.2.notified = w.notified ++ [n] ∧
    done.2.loader.dlopens = w.loader.dlopens + n.changesFile.toNat ∧
    ∀ name, name ∈ done.2.manager.plugins ↔
      if n.changesFile = true ∧ name = n.name then platform.fails w.loader.dlopens = false
      else name ∈ w.manager.plugins := by
  have changed := PluginManager.exec_fileChanged platform w.manager w.loader n.name n.isDir n.event
  obtain ⟨failed, dlopens, plugins⟩ := PluginManager.load_effect platform w.manager w.loader n.name
  simp only [told, answer, changed]
  by_cases changes : n.isDir = false ∧ (n.event = .create ∨ n.event = .modify)
  · have changesFile : n.changesFile = true := by simpa [Notification.changesFile] using changes
    simp only [if_pos changes, changesFile]
    exact ⟨by simpa using failed, trivial, dlopens, fun name => by simpa using plugins name⟩
  · have changesFile : n.changesFile = false := by simpa [Notification.changesFile] using changes
    simp only [if_neg changes, changesFile]
    exact ⟨by simp, trivial, rfl, fun name => by simp⟩

theorem exec_callback (n : Notification) :
    Program.exec (answer platform) (FileWatcher.callback n.name n.isDir n.event) w =
      (match (told platform w n).1 with
        | .ok () => .ok ()
        | .error e => .error (.callback e), (told platform w n).2) := by
  have asked : Program.exec (answer platform)
      (ExceptT.lift (Program.ask (WatchRequest.callback n.name n.isDir n.event)) :
        FileWatcher.Watch PluginException (Except PluginException Unit)) w =
      (.ok (told platform w n).1, (told platform w n).2) := rfl
  unfold FileWatcher.callback
  rw [Program.exec_bind, asked]
  rcases told platform w n with ⟨_ | _, after⟩ <;> rfl

theorem exec_handle (event : InotifyEvent) :
    Program.exec (answer platform) (FileWatcher.handle event) w = match event.notification with
      | none => (.ok (), w)
      | some n => Program.exec (answer platform) (FileWatcher.callback n.name n.isDir n.event) w := by
  unfold FileWatcher.handle InotifyEvent.notification
  by_cases unnamed : event.len = 0
  · simp [unnamed]
  · simp only [ne_eq, unnamed, not_false_eq_true, ↓reduceIte]
    split_ifs <;> rfl

/-- What an event does to the plugins: one that changes a file loads it, and ends the thread if
the load fails. -/
theorem handle_effect (event : InotifyEvent) :
    let done := Program.exec (answer platform) (FileWatcher.handle event) w
    ((∃ e, done.1 = .error e) ↔ event.changesFile = true ∧ platform.fails w.loader.dlopens = true) ∧
    done.2.notified = w.notified ++ event.notification.toList ∧
    done.2.loader.dlopens = w.loader.dlopens + event.changesFile.toNat ∧
    ∀ name, name ∈ done.2.manager.plugins ↔
      if event.changesFile = true ∧ name = event.name then platform.fails w.loader.dlopens = false
      else name ∈ w.manager.plugins := by
  rw [exec_handle, event.changesFile_eq]
  cases found : event.notification with
  | none => simp
  | some n =>
      obtain ⟨failed, notified, dlopens, plugins⟩ := told_effect platform w n
      have name := InotifyEvent.notification_name found
      dsimp only [Option.any_some]
      rw [exec_callback]
      refine ⟨?_, notified, dlopens, fun other => name ▸ plugins other⟩
      rw [← failed]
      cases (told platform w n).1 <;> simp

end PluginWatch

/-! ## Loads in the log -/

def Opened (log : List LoaderEvent) (name : StdString) : Prop :=
  ∃ handle, .opened (lit "./plugins/" ++ name) handle ∈ log

def Loader.Opens (l after : Loader) (names : StdString → Prop) : Prop :=
  ∃ added, after.log = l.log ++ added ∧ ∀ name, Opened added name ↔ names name

theorem Loader.opens_refl (l : Loader) : l.Opens l fun _ => False :=
  ⟨[], by simp, by simp [Opened]⟩

def reliable : Platform := ⟨fun _ => false, []⟩

theorem PluginManager.loadPlugin_opens (self : PluginManager) (l : Loader) (name : StdString) :
    l.Opens (exec reliable (loadPlugin name) self l).2.2 (· = name) := by
  have removed : l.Opens (without self l name).2 fun _ => False := by
    unfold without
    split
    · exact ⟨_, rfl, by simp [Opened]⟩
    · exact l.opens_refl
  rw [exec_loadPlugin, removed_eq]
  generalize without self l name = removed' at removed
  rcases removed' with ⟨self', l'⟩
  obtain ⟨added, extended, unopened⟩ := removed
  simp only [reliable, Bool.false_eq_true, ↓reduceIte]
  refine ⟨_, by rw [Loader.record, extended, List.append_assoc], fun n => ?_⟩
  have earlier : ∀ handle, .opened (lit "./plugins/" ++ n) handle ∉ added := by
    simpa [Opened] using unopened n
  simp [Opened, earlier]

theorem PluginWatch.handle_opens (w : PluginWatch) (event : InotifyEvent) :
    w.loader.Opens (Program.exec (answer reliable) (FileWatcher.handle event) w).2.loader
      (fun name => event.changesFile = true ∧ name = event.name) := by
  rw [exec_handle, event.changesFile_eq]
  cases found : event.notification with
  | none => simpa using w.loader.opens_refl
  | some n =>
      have name := InotifyEvent.notification_name found
      dsimp only [Option.any_some]
      rw [exec_callback, ← name]
      simp only [told, answer, PluginManager.exec_fileChanged]
      by_cases changes : n.isDir = false ∧ (n.event = .create ∨ n.event = .modify)
      · have changesFile : n.changesFile = true := by simpa [Notification.changesFile] using changes
        simpa [if_pos changes, changesFile] using PluginManager.loadPlugin_opens w.manager w.loader n.name
      · have changesFile : n.changesFile = false := by simpa [Notification.changesFile] using changes
        simpa [if_neg changes, changesFile] using w.loader.opens_refl

end SecureChat
