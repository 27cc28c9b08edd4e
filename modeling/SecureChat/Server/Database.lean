import Mathlib.Data.List.TakeWhile
import SecureChat.Common.Strings

/-!
# The users table

The statements that the server sends to its database, and what SQLite does with each: a statement
on a missing table fails, `CREATE TABLE IF NOT EXISTS` keeps an existing table, a `SELECT` into
single variables fetches the first row in insertion order, and nothing makes the column `id`
unique. Texts pass through soci on their way to the table and back. `execute` has the one failure that
depends on the statements executed so far. A statement also fails when another connection is inside
the database or has changed its tables: only what is proved for any answers covers that.
-/

namespace SecureChat

/-- How texts are stored: `asText s` is what is left of `s` as a bound or fetched text. -/
class Storage where
  asText : StdString → StdString
  asText_asText : ∀ s, asText (asText s) = asText s
  asText_prefix : ∀ s, asText s <+: s

export Storage (asText)

attribute [simp] Storage.asText_asText

namespace Storage

/-- soci copies a bound text with `strcpy` and a fetched one with `assign(const char*)`. -/
instance soci : Storage where
  asText s := s.takeWhile (· ≠ 0)
  asText_asText _ := List.takeWhile_idem
  asText_prefix s := s.takeWhile_prefix _

/-- Texts stored with all their bytes. -/
@[reducible] def exact : Storage where
  asText s := s
  asText_asText _ := rfl
  asText_prefix s := s.prefix_refl

end Storage

structure Row where
  id : StdString
  pw : StdString
  pubkey : StdString
  deriving DecidableEq

section
variable [Storage]

def Row.asTexts (row : Row) : Row :=
  ⟨asText row.id, asText row.pw, asText row.pubkey⟩

@[simp] theorem Row.asTexts_id (row : Row) : row.asTexts.id = asText row.id := rfl
@[simp] theorem Row.asTexts_pw (row : Row) : row.asTexts.pw = asText row.pw := rfl
@[simp] theorem Row.asTexts_pubkey (row : Row) : row.asTexts.pubkey = asText row.pubkey := rfl

@[simp] theorem Row.asTexts_asTexts (row : Row) : row.asTexts.asTexts = row.asTexts := by
  simp [Row.asTexts]

end

/-- The table `users`, or nothing while it has not been created. -/
abbrev Users := Option (List Row)

inductive SociError where
  | noSuchTable
  | databaseLocked
  | schemaChanged
  deriving DecidableEq

inductive Statement where
  | createTable
  | select (id : StdString)
  | insert (row : Row)
  | delete (id : StdString)
  deriving DecidableEq

def Statement.Fetched : Statement → Type
  | .select _ => Option Row
  | _ => Unit

def Statement.execute [Storage] : (s : Statement) → Users → Except SociError s.Fetched × Users
  | .createTable, users => (.ok (), some (users.getD []))
  | .select _, none => (.error .noSuchTable, none)
  | .select id, some rows => (.ok ((rows.find? (·.id = asText id)).map Row.asTexts), some rows)
  | .insert _, none => (.error .noSuchTable, none)
  | .insert row, some rows => (.ok (), some (rows ++ [row.asTexts]))
  | .delete _, none => (.error .noSuchTable, none)
  | .delete id, some rows => (.ok (), some (rows.filter (·.id ≠ asText id)))

namespace Users

def rows (users : Users) : List Row :=
  users.getD []

def find (users : Users) (id : StdString) : Option Row :=
  users.rows.find? (·.id = id)

/-- What `SELECT ... WHERE id = :id` fetches from an existing table. -/
def fetch [Storage] (users : Users) (id : StdString) : Option Row :=
  (users.find (asText id)).map Row.asTexts

def rowsOf (users : Users) (id : StdString) : List Row :=
  users.rows.filter (·.id = id)

def UniqueIds (users : Users) : Prop :=
  ∀ id, (users.rowsOf id).length ≤ 1

theorem mem_rowsOf {users : Users} {id : StdString} {row : Row} :
    row ∈ users.rowsOf id ↔ row ∈ users.rows ∧ row.id = id := by
  simp [rowsOf]

theorem find_eq_head? (users : Users) (id : StdString) : users.find id = (users.rowsOf id).head? := by
  simp [find, rowsOf]

theorem find_eq_none {users : Users} {id : StdString} : users.find id = none ↔ users.rowsOf id = [] := by
  rw [find_eq_head?, List.head?_eq_none_iff]

theorem find_eq_some {users : Users} (unique : users.UniqueIds) {id : StdString} {row : Row} :
    users.find id = some row ↔ row ∈ users.rows ∧ row.id = id := by
  rw [← mem_rowsOf, find_eq_head?]
  match rows : users.rowsOf id, unique id with
  | [], _ => simp
  | [only], _ => simp [eq_comm]

theorem rowsOf_insert (rows : List Row) (row : Row) (id : StdString) :
    rowsOf (some (rows ++ [row])) id = rowsOf (some rows) id ++ if row.id = id then [row] else [] := by
  by_cases same : row.id = id <;> simp [rowsOf, Users.rows, same]

theorem rowsOf_delete (rows : List Row) (deleted id : StdString) :
    rowsOf (some (rows.filter (·.id ≠ deleted))) id = if id = deleted then [] else rowsOf (some rows) id := by
  simp only [rowsOf, Users.rows, Option.getD_some]
  split
  · next same =>
      subst same
      simp [List.filter_filter]
  · next other =>
      rw [List.filter_filter]
      apply List.filter_congr
      intro row _
      grind

end Users
end SecureChat
