import SecureChat.Common.Strings

/-!
# IDs

`sdcHelper` splits an ID at its first '@' into a name and a server. The callers use the name of a
valid ID and take an invalid ID as it is; `key` is that choice, which the server writes out in
each of its three operations on accounts.
-/

namespace SecureChat

def atSign : Int8 := 64

def getServerFromID (id : StdString) : StdString :=
  match id.idxOf? atSign with
  | some seperator => id.drop (seperator + 1)
  | none => []

def getNameFromID (id : StdString) : StdString :=
  match id.idxOf? atSign with
  | some seperator => id.take seperator
  | none => []

def isValidID (id : StdString) : Bool :=
  if getNameFromID id = [] ∨ getServerFromID id = [] then false else true

def key (id : StdString) : StdString :=
  if isValidID id then getNameFromID id else id

/-! ## Splitting at the first '@' -/

theorem idxOf?_first {α : Type} [BEq α] [LawfulBEq α] {name : List α} {sep : α} (absent : sep ∉ name)
    (server : List α) : (name ++ sep :: server).idxOf? sep = some name.length := by
  rw [List.idxOf?_eq_some_iff]
  refine ⟨by simp, by simp, ?_⟩
  intro j before same
  rw [List.getElem_append_left before] at same
  exact absent (same ▸ List.getElem_mem before)

variable {id name server : StdString}

theorem getNameFromID_full (absent : atSign ∉ name) :
    getNameFromID (name ++ atSign :: server) = name := by
  simp [getNameFromID, idxOf?_first absent]

theorem getServerFromID_full (absent : atSign ∉ name) :
    getServerFromID (name ++ atSign :: server) = server := by
  simp [getServerFromID, idxOf?_first absent]

theorem isValidID_full (absent : atSign ∉ name) :
    isValidID (name ++ atSign :: server) = true ↔ name ≠ [] ∧ server ≠ [] := by
  simp [isValidID, getNameFromID_full absent, getServerFromID_full absent]

theorem isValidID_of_absent (absent : atSign ∉ id) : isValidID id = false := by
  simp [isValidID, getNameFromID, List.idxOf?_eq_none_iff.mpr absent]

theorem isValidID_iff : isValidID id = true ↔
    ∃ name server, id = name ++ atSign :: server ∧ atSign ∉ name ∧ name ≠ [] ∧ server ≠ [] := by
  constructor
  · intro valid
    have member : atSign ∈ id := by
      by_contra absent
      simp [isValidID_of_absent absent] at valid
    obtain ⟨name, server, rfl, absent⟩ := List.eq_append_cons_of_mem member
    exact ⟨name, server, rfl, absent, (isValidID_full absent).mp valid⟩
  · intro split
    obtain ⟨name, server, rfl, absent, parts⟩ := split
    exact (isValidID_full absent).mpr parts

/-! ## The key of an account -/

theorem key_of_invalid (invalid : isValidID id = false) : key id = id := by
  simp [key, invalid]

theorem key_full (absent : atSign ∉ name) (named : name ≠ []) (served : server ≠ []) :
    key (name ++ atSign :: server) = name := by
  simp [key, (isValidID_full absent).mpr ⟨named, served⟩, getNameFromID_full absent]

theorem isValidID_key (id : StdString) : isValidID (key id) = false := by
  cases valid : isValidID id with
  | false => rw [key_of_invalid valid, valid]
  | true =>
      obtain ⟨name, server, rfl, absent, named, served⟩ := isValidID_iff.mp valid
      rw [key_full absent named served]
      exact isValidID_of_absent absent

@[simp] theorem key_key (id : StdString) : key (key id) = key id :=
  key_of_invalid (isValidID_key id)

/-- Cutting an ID that is its own key does not make it a full one. -/
theorem key_of_prefix {k : StdString} (cut : k <+: id) (normal : key id = id) : key k = k := by
  apply key_of_invalid
  by_contra valid
  obtain ⟨name, server, rfl, absent, named, served⟩ := isValidID_iff.mp (by simpa using valid)
  obtain ⟨rest, rfl⟩ := cut
  have whole : isValidID (name ++ atSign :: server ++ rest) = true :=
    isValidID_iff.mpr ⟨name, server ++ rest, by simp, absent, named, by simp [served]⟩
  rw [← normal, isValidID_key] at whole
  contradiction

theorem key_append_server (k : StdString) (served : server ≠ []) :
    key (k ++ atSign :: server) = k ↔ k ≠ [] ∧ atSign ∉ k := by
  constructor
  · intro same
    by_cases valid : isValidID (k ++ atSign :: server) = true
    · obtain ⟨name, rest, split, absent, named, _⟩ := isValidID_iff.mp valid
      have found : key (k ++ atSign :: server) = name := by
        rw [key, if_pos valid, split, getNameFromID_full absent]
      rw [← same, found]
      exact ⟨named, absent⟩
    · rw [key_of_invalid (by simpa using valid)] at same
      simp at same
  · intro parts
    exact key_full parts.2 parts.1 served

/-! ## IDs of the same account -/

/-- The ID is the name itself, or the name at some server. -/
def Names (name id : StdString) : Prop :=
  id = name ∨ ∃ server, server ≠ [] ∧ id = name ++ atSign :: server

theorem key_of_names (absent : atSign ∉ name) (named : name ≠ []) (names : Names name id) : key id = name := by
  rcases names with rfl | ⟨server, served, rfl⟩
  · exact key_of_invalid (isValidID_of_absent absent)
  · exact key_full absent named served

theorem names_key (id : StdString) : Names (key id) id := by
  cases valid : isValidID id with
  | false => exact .inl (key_of_invalid valid).symm
  | true =>
      obtain ⟨name, server, rfl, absent, named, served⟩ := isValidID_iff.mp valid
      exact .inr ⟨server, served, by rw [key_full absent named served]⟩

theorem name_of_key_ne (changed : key id ≠ id) : key id ≠ [] ∧ atSign ∉ key id := by
  cases valid : isValidID id with
  | false => exact absurd (key_of_invalid valid) changed
  | true =>
      obtain ⟨name, server, rfl, absent, named, served⟩ := isValidID_iff.mp valid
      rw [key_full absent named served]
      exact ⟨named, absent⟩

theorem key_eq_iff (x y : StdString) : key x = key y ↔
    x = y ∨ ∃ name, name ≠ [] ∧ atSign ∉ name ∧ Names name x ∧ Names name y := by
  constructor
  · intro same
    by_cases keptX : key x = x
    · by_cases keptY : key y = y
      · exact .inl (keptX.symm.trans (same.trans keptY))
      · obtain ⟨named, absent⟩ := name_of_key_ne keptY
        exact .inr ⟨key y, named, absent, same ▸ names_key x, names_key y⟩
    · obtain ⟨named, absent⟩ := name_of_key_ne keptX
      exact .inr ⟨key x, named, absent, names_key x, same ▸ names_key y⟩
  · rintro (rfl | ⟨name, named, absent, namesX, namesY⟩)
    · rfl
    · rw [key_of_names absent named namesX, key_of_names absent named namesY]

/-- Which IDs are valid, what their parts are, and which two IDs the server takes for one account. -/
theorem ids_of_accounts (x y : StdString) :
    (isValidID x = true ↔
      ∃ name server, x = name ++ atSign :: server ∧ atSign ∉ name ∧ name ≠ [] ∧ server ≠ []) ∧
    (∀ name server, x = name ++ atSign :: server → atSign ∉ name → name ≠ [] → server ≠ [] →
      getNameFromID x = name ∧ getServerFromID x = server) ∧
    key (key x) = key x ∧
    (key x = key y ↔ x = y ∨ ∃ name, name ≠ [] ∧ atSign ∉ name ∧ Names name x ∧ Names name y) := by
  refine ⟨isValidID_iff, ?_, key_key x, key_eq_iff x y⟩
  rintro name server rfl absent _ _
  exact ⟨getNameFromID_full absent, getServerFromID_full absent⟩

end SecureChat
