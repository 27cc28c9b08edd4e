import SecureChat.Common.PluginManager

/-!
# The plugin directory

The constructor loads the regular files of the plugin directory in the order in which the directory
iterator returns them, and starts a watcher on the directory. The destructor gives back what is
loaded once the watcher is gone.
-/

namespace SecureChat
open Library

inductive FileKind where
  | regular
  | directory
  | other
  deriving DecidableEq

/-- Directories and the entries that an iterator over them returns, in its order and each with the
kind that it has when symbolic links are followed. -/
structure FileSystem where
  Dir : Type
  directory : StdString → Option Dir
  entries : Dir → List (StdString × FileKind)
  distinct : ∀ dir, ((entries dir).map Prod.fst).Nodup

def FileSystem.regularFiles (fs : FileSystem) (dir : fs.Dir) : List StdString :=
  ((fs.entries dir).filter fun entry => entry.2 = .regular).map Prod.fst

theorem FileSystem.mem_regularFiles (fs : FileSystem) (dir : fs.Dir) (name : StdString) :
    name ∈ fs.regularFiles dir ↔ (name, .regular) ∈ fs.entries dir := by
  simp [regularFiles]

theorem FileSystem.regularFiles_nodup (fs : FileSystem) (dir : fs.Dir) : (fs.regularFiles dir).Nodup :=
  (fs.distinct dir).sublist (List.filter_sublist.map Prod.fst)

namespace PluginManager

def loadEntries : List (StdString × FileKind) → Method Unit
  | [] => pure ()
  | (filename, status) :: rest => do
      if status = .regular then
        loadPlugin filename
      loadEntries rest

/-- The constructor. It returns the directory that it makes the watcher for. -/
def new (fs : FileSystem) (plugin_dir : StdString) : Method StdString := do
  match fs.directory plugin_dir with
  | none => throw ⟨plugin_dir ++ lit " is not a directory"⟩
  | some dir =>
      loadEntries (fs.entries dir)
      return plugin_dir

/-- The destructor, from where the watcher has been deleted. -/
def delete : Method Unit := do
  forM (← get).plugins.values destroy
  forM (← get).handles.values dlclose

end PluginManager
end SecureChat
