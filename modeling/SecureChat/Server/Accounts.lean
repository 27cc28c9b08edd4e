import SecureChat.Library.Ledger
import SecureChat.Server.Effects

/-!
# The accounts behind the table

What the users table is for: a directory that gives each account the registration in force. The
history of a run determines it, since a successful `registerUser` puts a registration under its
account and a `deleteUser` that returns normally drops what is under its account. `consistent` shows
that after every run the table holds exactly the rows of this directory.
-/

namespace SecureChat
open Library

section
variable [Storage]

abbrev Past := List (Moment World Operation Result)

abbrev past (ops : List Operation) : Past := history perform .empty ops

abbrev world (ops : List Operation) : World := final perform .empty ops

/-- A successful `registerUser`: the position of the call in the run and its arguments. -/
structure Registration where
  call : Nat
  user : User
  pw : StdString

def Registration.row (r : Registration) : Row :=
  r.user.row r.pw

def accountChange (m : Moment World Operation Result) (call : Nat) : Option (Change StdString Registration) :=
  match m.action, m.output with
  | .registerUser u pw, .ok _ => some (.put (account u.ID) ⟨call, u, pw⟩)
  | .invoke _ (.deleteUser u), .ok _ => some (.drop (account u.ID))
  | _, _ => none

def accountChanges (h : Past) : List (Change StdString Registration) :=
  h.zipIdx.filterMap fun (m, call) => accountChange m call

def registration (h : Past) (k : StdString) : Option Registration :=
  Ledger.replay (accountChanges h) k

theorem accountChanges_concat (h : Past) (m : Moment World Operation Result) :
    accountChanges (h ++ [m]) = accountChanges h ++ (accountChange m h.length).toList := by
  cases change : accountChange m h.length <;> simp [accountChanges, List.zipIdx_append, change]

/-! ## Registrations and deletions in a history -/

def Registers (m : Moment World Operation Result) (k : StdString) (u : User) (pw : StdString) : Prop :=
  m.action = .registerUser u pw ∧ account u.ID = k ∧ ∃ value, m.output = .ok value

def Deletes (m : Moment World Operation Result) (k : StdString) : Prop :=
  ∃ uuid u, m.action = .invoke uuid (.deleteUser u) ∧ account u.ID = k ∧ ∃ value, m.output = .ok value

/-- A successful registration of the account that no normal return of `deleteUser` on it followed. -/
def Registered (h : Past) (k : StdString) (u : User) (pw : StdString) : Prop :=
  ∃ before m since, h = before ++ m :: since ∧ Registers m k u pw ∧ ∀ d ∈ since, ¬ Deletes d k

theorem not_registered_nil (k : StdString) (u : User) (pw : StdString) : ¬ Registered [] k u pw := by
  intro registered
  obtain ⟨before, m, since, split, _⟩ := registered
  simp at split

theorem registered_concat (h : Past) (m : Moment World Operation Result) (k : StdString) (u : User)
    (pw : StdString) : Registered (h ++ [m]) k u pw ↔
      Registers m k u pw ∨ (Registered h k u pw ∧ ¬ Deletes m k) := by
  constructor
  · intro registered
    obtain ⟨before, r, since, split, registers, kept⟩ := registered
    rcases concat_eq_append_cons.mp split with ⟨rfl, rfl, rfl⟩ | ⟨middle, rfl, rfl⟩
    · exact .inl registers
    · obtain ⟨earlier, last⟩ := forall_mem_concat.mp kept
      exact .inr ⟨⟨before, r, middle, rfl, registers, earlier⟩, last⟩
  · rintro (registers | ⟨⟨before, r, since, rfl, registers, kept⟩, last⟩)
    · exact ⟨h, m, [], by simp, registers, by simp⟩
    · exact ⟨before, r, since ++ [m], by simp, registers, forall_mem_concat.mpr ⟨kept, last⟩⟩

section
variable {h : Past} {m : Moment World Operation Result} {k : StdString} {u : User} {pw : StdString}

theorem registration_of_registers (registers : Registers m k u pw) :
    registration (h ++ [m]) k = some ⟨h.length, u, pw⟩ := by
  rcases m with ⟨before, action, output, after⟩
  obtain ⟨rfl, rfl, value, rfl⟩ := registers
  simp [registration, accountChanges_concat, accountChange]

theorem registration_of_deletes (deletes : Deletes m k) : registration (h ++ [m]) k = none := by
  rcases m with ⟨before, action, output, after⟩
  obtain ⟨uuid, u, rfl, rfl, value, rfl⟩ := deletes
  simp [registration, accountChanges_concat, accountChange]

theorem registration_of_neither (unregistered : ∀ u pw, ¬ Registers m k u pw) (kept : ¬ Deletes m k) :
    registration (h ++ [m]) k = registration h k := by
  rcases m with ⟨before, action, output, after⟩
  unfold registration
  rw [accountChanges_concat]
  cases change : accountChange ⟨before, action, output, after⟩ h.length with
  | none => simp
  | some change =>
      unfold accountChange at change
      split at change
      · next u pw value action output =>
          have other : k ≠ account u.ID := fun same => unregistered u pw ⟨action, same.symm, value, output⟩
          simp [← Option.some.inj change, other]
      · next uuid u value action output =>
          have other : k ≠ account u.ID := fun same => kept ⟨uuid, u, action, same.symm, value, output⟩
          simp [← Option.some.inj change, other]
      · contradiction

theorem registration_placed {r : Registration} (found : registration h k = some r) :
    ∃ before m since, h = before ++ m :: since ∧ r.call = before.length ∧ Registers m k r.user r.pw ∧
      ∀ d ∈ since, ¬ Deletes d k := by
  induction h using List.reverseRecOn with
  | nil => simp [registration, accountChanges] at found
  | append_singleton h m ih =>
      by_cases registers : ∃ u pw, Registers m k u pw
      · obtain ⟨u, pw, registers⟩ := registers
        rw [registration_of_registers registers, Option.some.injEq] at found
        subst found
        exact ⟨h, m, [], rfl, rfl, registers, by simp⟩
      by_cases deletes : Deletes m k
      · rw [registration_of_deletes deletes] at found
        contradiction
      · rw [registration_of_neither (fun u pw r => registers ⟨u, pw, r⟩) deletes] at found
        obtain ⟨before, first, since, rfl, call, registers, kept⟩ := ih found
        exact ⟨before, first, since ++ [m], by simp, call, registers, forall_mem_concat.mpr ⟨kept, deletes⟩⟩

theorem registration_call_lt {r : Registration} (found : registration h k = some r) : r.call < h.length := by
  obtain ⟨before, m, since, rfl, call, _⟩ := registration_placed found
  rw [call, List.length_append, List.length_cons]
  omega

end

/-! ## The table holds the registrations in force -/

omit [Storage] in
@[simp] theorem rowsOf_opened (w : World) (k : StdString) : w.opened.users.rowsOf k = w.users.rowsOf k := rfl

theorem rows_step (op : Operation) (w : World) (k : StdString) :
    (∃ u pw, Registers (moment perform w op) k u pw ∧ w.users.rowsOf k = [] ∧
      (perform op w).2.users.rowsOf k = [u.row pw]) ∨
    (Deletes (moment perform w op) k ∧ (perform op w).2.users.rowsOf k = []) ∨
    ((∀ u pw, ¬ Registers (moment perform w op) k u pw) ∧ ¬ Deletes (moment perform w op) k ∧
      (perform op w).2.users.rowsOf k = w.users.rowsOf k) := by
  unfold moment
  generalize result : perform op w = done
  have step := perform_step op w
  rw [result] at step
  rcases done with ⟨output, after⟩
  dsimp only at step ⊢
  cases step with
  | registered u pw vacant =>
      rw [Users.find_eq_none] at vacant
      have rows : Users.rowsOf (some w.users.rows) k = w.users.rowsOf k := rfl
      by_cases same : account u.ID = k
      · subst same
        exact .inl ⟨u, pw, ⟨rfl, rfl, _, rfl⟩, vacant, by simp [Users.rowsOf_insert, rows, vacant]⟩
      · refine .inr (.inr ⟨?_, by simp [Deletes], by simp [Users.rowsOf_insert, rows, same]⟩)
        intro u' pw' registers
        obtain ⟨action, at_key, _⟩ := registers
        cases action
        exact same at_key
  | deleted uuid session called u own rows table =>
      by_cases same : account u.ID = k
      · subst same
        refine .inr (.inl ⟨⟨uuid, u, rfl, rfl, _, rfl⟩, ?_⟩)
        rw [World.setUsers_users, Users.rowsOf_delete, if_pos rfl]
      · refine .inr (.inr ⟨by simp [Registers], ?_, by
          rw [World.setUsers_users, Users.rowsOf_delete, if_neg (Ne.symm same), table]⟩)
        intro deletes
        obtain ⟨uuid', u', action, at_key, _⟩ := deletes
        cases action
        exact same at_key
  | stub uuid session called m stub value =>
      refine .inr (.inr ⟨by simp [Registers], ?_, rfl⟩)
      intro deletes
      obtain ⟨uuid', u', action, _⟩ := deletes
      cases action
      exact stub.2 u' rfl
  | _ => exact .inr (.inr ⟨by simp [Registers], by simp [Deletes], rfl⟩)

structure ConsistentAt (h : Past) (w : World) (k : StdString) : Prop where
  rows : w.users.rowsOf k = ((registration h k).map Registration.row).toList
  registered : ∀ u pw, Registered h k u pw → ∃ call, registration h k = some ⟨call, u, pw⟩

theorem consistentAt_empty (k : StdString) : ConsistentAt [] .empty k where
  rows := rfl
  registered u pw registered := absurd registered (not_registered_nil k u pw)

theorem ConsistentAt.step {h : Past} {w : World} {k : StdString} (now : ConsistentAt h w k) (op : Operation) :
    ConsistentAt (h ++ [moment perform w op]) (perform op w).2 k := by
  rcases rows_step op w k with ⟨u, pw, registers, vacant, rows⟩ | ⟨deletes, rows⟩ | ⟨unregistered, kept, rows⟩
  · have put := registration_of_registers (h := h) registers
    have none_before : registration h k = none := by simpa [vacant] using now.rows.symm
    constructor
    · simp [put, rows, Registration.row]
    · intro u' pw' registered
      rcases (registered_concat ..).mp registered with again | ⟨earlier, _⟩
      · have same := registers.1.symm.trans again.1
        cases same
        exact ⟨_, put⟩
      · obtain ⟨_, found⟩ := now.registered u' pw' earlier
        rw [none_before] at found
        contradiction
  · constructor
    · simp [registration_of_deletes (h := h) deletes, rows]
    · intro u pw registered
      obtain ⟨uuid, d, action, _⟩ := id deletes
      simp [registered_concat, deletes, Registers, action] at registered
  · have same := registration_of_neither (h := h) unregistered kept
    constructor
    · rw [rows, same, now.rows]
    · intro u pw registered
      rw [same]
      rcases (registered_concat ..).mp registered with registers | ⟨earlier, _⟩
      · exact absurd registers (unregistered u pw)
      · exact now.registered u pw earlier

theorem consistent (ops : List Operation) (k : StdString) : ConsistentAt (past ops) (world ops) k :=
  history_rule perform (fun h w => ConsistentAt h w k) (consistentAt_empty k)
    (fun _ _ op now => now.step op) ops

theorem registered_iff (ops : List Operation) (k : StdString) (u : User) (pw : StdString) :
    Registered (past ops) k u pw ↔ ∃ call, registration (past ops) k = some ⟨call, u, pw⟩ := by
  refine ⟨(consistent ops k).registered u pw, ?_⟩
  intro inForce
  obtain ⟨call, found⟩ := inForce
  obtain ⟨before, m, since, split, _, registers, kept⟩ := registration_placed found
  exact ⟨before, m, since, split, registers, kept⟩

theorem stored_row (ops : List Operation) {row : Row} (stored : row ∈ (world ops).users.rows) :
    ∃ r, registration (past ops) row.id = some r ∧ row = r.row ∧
      ∃ before m since, past ops = before ++ m :: since ∧ r.call = before.length ∧
        Registers m row.id r.user r.pw ∧ ∀ d ∈ since, ¬ Deletes d row.id := by
  have member : row ∈ (world ops).users.rowsOf row.id := Users.mem_rowsOf.mpr ⟨stored, rfl⟩
  rw [(consistent ops row.id).rows] at member
  obtain ⟨r, found, same⟩ := Option.map_eq_some_iff.mp (Option.mem_toList.mp member)
  exact ⟨r, found, same.symm, registration_placed found⟩

theorem find_eq_registration (ops : List Operation) (k : StdString) :
    (world ops).users.find k = (registration (past ops) k).map Registration.row := by
  rw [Users.find_eq_head?, (consistent ops k).rows]
  cases registration (past ops) k <;> rfl

theorem fetch_eq_registration (ops : List Operation) (id : StdString) :
    (world ops).users.fetch (key id) = (registration (past ops) (account id)).map Registration.row := by
  rw [Users.fetch_key, find_eq_registration]
  cases registration (past ops) (account id) <;> simp [Registration.row]

theorem uniqueIds (ops : List Operation) : (world ops).users.UniqueIds := by
  intro k
  rw [(consistent ops k).rows]
  cases registration (past ops) k <;> simp

end
end SecureChat
