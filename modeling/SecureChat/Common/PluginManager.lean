import Std.Data.TreeMap
import SecureChat.Common.Strings
import SecureChat.Library.Object

/-!
# PluginManager

The plugins that are loaded and the handles of their libraries, by file name. The calls to the
dynamic loader and to the plugins are requests.
-/

namespace SecureChat
open Library

/-- `std::string` compares its characters as unsigned bytes. -/
def StdString.compare (a b : StdString) : Ordering :=
  Ord.compare (StdString.toByteSeq a) (StdString.toByteSeq b)

instance : Std.TransCmp StdString.compare :=
  inferInstanceAs (Std.TransCmp (compareOn StdString.toByteSeq))

instance : Std.LawfulEqCmp StdString.compare where
  eq_of_compare {a b} same := by
    have bytes : StdString.toByteSeq a = StdString.toByteSeq b := Std.LawfulEqOrd.eq_of_compare same
    rw [← ByteSeq.toStdString_toByteSeq a, bytes, ByteSeq.toStdString_toByteSeq]

abbrev QMap (α : Type) := Std.TreeMap StdString α StdString.compare

namespace QMap
variable {α : Type} (m : QMap α) (name n : StdString)

theorem mem_erase : n ∈ m.erase name ↔ n ≠ name ∧ n ∈ m := by
  rw [Std.TreeMap.mem_erase, ne_eq, ne_eq, Std.LawfulEqCmp.compare_eq_iff_eq, eq_comm]

theorem mem_insert (value : α) : n ∈ m.insert name value ↔ n = name ∨ n ∈ m := by
  rw [Std.TreeMap.mem_insert, Std.LawfulEqCmp.compare_eq_iff_eq, eq_comm]

theorem getElem?_erase : (m.erase name)[n]? = if n = name then none else m[n]? := by
  simp only [Std.TreeMap.getElem?_erase, Std.LawfulEqCmp.compare_eq_iff_eq, eq_comm (a := n)]

theorem getElem?_insert (value : α) :
    (m.insert name value)[n]? = if n = name then some value else m[n]? := by
  simp only [Std.TreeMap.getElem?_insert, Std.LawfulEqCmp.compare_eq_iff_eq, eq_comm (a := n)]

theorem mem_iff : n ∈ m ↔ ∃ value, m[n]? = some value := by
  rw [← Std.TreeMap.isSome_getElem?_iff_mem, Option.isSome_iff_exists]

/-- The values of all keys, in the order of the keys. -/
def values : List α := m.toList.map Prod.snd

variable {m}

theorem mem_values {value : α} : value ∈ m.values ↔ ∃ name : StdString, m[name]? = some value := by
  simp [values, Std.TreeMap.mem_toList_iff_getElem?_eq_some]

theorem values_nodup (injective : ∀ (name n : StdString) (value : α),
    m[name]? = some value → m[n]? = some value → name = n) : m.values.Nodup := by
  refine List.pairwise_map.mpr (Std.TreeMap.distinct_keys_toList.imp_of_mem ?_)
  intro a b first second distinct same
  rw [Std.TreeMap.mem_toList_iff_getElem?_eq_some] at first second
  exact distinct (Std.LawfulEqCmp.compare_eq_iff_eq.mpr (injective a.1 b.1 b.2 (same ▸ first) second))

theorem exists_erase {old value : α} {name : StdString} (present : m[name]? = some old)
    (only : ∀ n : StdString, m[n]? = some old → n = name) {P Q : StdString → Prop}
    (same : ∀ n, n ≠ name → (P n ↔ Q n)) :
    (∃ n : StdString, (m.erase name)[n]? = some value ∧ P n) ↔
      value ≠ old ∧ ∃ n : StdString, m[n]? = some value ∧ Q n := by
  simp only [getElem?_erase]
  constructor
  · intro ⟨n, found, holds⟩
    split at found
    · contradiction
    · next differ =>
        have moved : value ≠ old := fun equal => differ (only n (equal ▸ found))
        exact ⟨moved, n, found, (same n differ).mp holds⟩
  · intro ⟨moved, n, found, holds⟩
    have differ : n ≠ name := by
      rintro rfl
      rw [present, Option.some.injEq] at found
      exact moved found.symm
    exact ⟨n, by rw [if_neg differ, found], (same n differ).mpr holds⟩

theorem exists_insert {new value : α} {name : StdString} (absent : m[name]? = none)
    (unused : ∀ n : StdString, m[n]? ≠ some new) {P Q : StdString → Prop}
    (same : ∀ n, n ≠ name → (P n ↔ Q n)) :
    (∃ n : StdString, (m.insert name new)[n]? = some value ∧ P n) ↔
      (value = new ∧ P name) ∨ (value ≠ new ∧ ∃ n : StdString, m[n]? = some value ∧ Q n) := by
  simp only [getElem?_insert]
  constructor
  · intro ⟨n, found, holds⟩
    split at found
    · next named =>
        rw [Option.some.injEq] at found
        exact .inl ⟨found.symm, named ▸ holds⟩
    · next differ =>
        have moved : value ≠ new := fun equal => unused n (equal ▸ found)
        exact .inr ⟨moved, n, found, (same n differ).mp holds⟩
  · rintro (⟨rfl, holds⟩ | ⟨_, n, found, holds⟩)
    · exact ⟨name, by simp, holds⟩
    · have differ : n ≠ name := by
        rintro rfl
        rw [absent] at found
        contradiction
      exact ⟨n, by rw [if_neg differ, found], (same n differ).mpr holds⟩

end QMap

/-- A pointer, with 0 for the null pointer. -/
abbrev Pointer := Nat

inductive FileEvent where
  | create
  | modify
  | delete
  deriving DecidableEq

structure PluginException where
  reason : StdString
  deriving DecidableEq

inductive PluginRequest where
  | dlopen (path : StdString)
  | dlerror
  | makePlugin (handle : Pointer)
  | destroy (plugin : Pointer)
  | dlclose (handle : Pointer)
  deriving DecidableEq

def PluginRequest.Reply : PluginRequest → Type
  | .dlopen _ => Option Pointer
  | .dlerror => StdString
  | .makePlugin _ => Pointer
  | .destroy _ => Unit
  | .dlclose _ => Unit

structure PluginManager where
  plugins : QMap Pointer
  handles : QMap Pointer

namespace PluginManager

abbrev Method := Library.Method PluginRequest PluginRequest.Reply PluginManager PluginException

def dlopen (path : StdString) : Method (Option Pointer) := Library.Method.ask (PluginRequest.dlopen path)

def dlerror : Method StdString := Library.Method.ask PluginRequest.dlerror

/-- `dlsym(handle, "make_plugin")` and the call of what it returns. -/
def makePlugin (handle : Pointer) : Method Pointer := Library.Method.ask (PluginRequest.makePlugin handle)

def destroy (plugin : Pointer) : Method Unit := Library.Method.ask (PluginRequest.destroy plugin)

def dlclose (handle : Pointer) : Method Unit := Library.Method.ask (PluginRequest.dlclose handle)

def removePlugin (plugin_name : StdString) : Method Unit := do
  if (← get).plugins.contains plugin_name then
    destroy ((← get).plugins.getD plugin_name 0)
    modify fun self => { self with plugins := self.plugins.erase plugin_name }
    dlclose ((← get).handles.getD plugin_name 0)
    modify fun self => { self with handles := self.handles.erase plugin_name }

def loadPlugin (plugin_name : StdString) : Method Unit := do
  removePlugin plugin_name
  let path := lit "./plugins/" ++ plugin_name
  match ← dlopen path with
  | none => throw ⟨lit "failed to load plugin from " ++ path ++ lit ": " ++ (← dlerror)⟩
  | some handle =>
      let plugin ← makePlugin handle
      modify fun self => { self with plugins := self.plugins.insert plugin_name plugin }
      modify fun self => { self with handles := self.handles.insert plugin_name handle }

def fileChanged (name : StdString) (isDir : Bool) (e : FileEvent) : Method Unit := do
  if !isDir then
    if e = .create ∨ e = .modify then
      loadPlugin name

end PluginManager
end SecureChat
