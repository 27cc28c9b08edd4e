import SecureChat.Server.Lifetimes

/-!
# Sessions and registrations

What a session says about its user is what somebody has registered, as far as the database keeps
it, and what somebody has registered stays until it is deleted by a session of that account. Both
hold for calls in any order, also for the ones that register a name twice.
-/

namespace SecureChat
open Library

variable [Storage]

/-! ## One turn -/

theorem execute_rows {s : Statement} {users : Users} {row : Row} (there : row ∈ (s.execute users).2.rows) :
    row ∈ users.rows ∨ ∃ new, s = .insert new ∧ row = new.asTexts := by
  cases users with
  | none => cases s <;> simp [Statement.execute, Users.rows] at there
  | some rows =>
      cases s with
      | insert new =>
          rcases List.mem_append.mp there with earlier | now
          · exact .inl earlier
          · exact .inr ⟨new, rfl, List.mem_singleton.mp now⟩
      | delete id => exact .inl (List.mem_of_mem_filter there)
      | _ => exact .inl there

theorem execute_find {s : Statement} {users : Users} {k : StdString} {row : Row} (found : users.find k = some row) :
    (s.execute users).2.find k = some row ∨ ∃ id, s = .delete id ∧ asText id = k := by
  have table : users.isSome := by
    cases users with
    | none => simp [Users.find, Users.rows] at found
    | some rows => rfl
  rw [Users.find_eq_head?] at found ⊢
  rw [rowsOf_execute s users k (.inl table)]
  cases s with
  | insert new =>
      -- an inserted row comes after the ones that are there
      exact .inl (by simp [List.head?_append, found])
  | delete id =>
      by_cases same : k = asText id
      · exact .inr ⟨id, rfl, same.symm⟩
      · exact .inl (by simpa [same] using found)
  | _ => exact .inl found

/-- The table after a turn, by the statement that it executed. -/
theorem turn_users (past : List Action) (a : Action) :
    (interleaving (past ++ [a])).world.users = (interleaving past).world.users ∨
      ∃ turn s, (ThreadPool.turn a (interleaving past)).1 = some turn ∧ turn.request = some (.sql s) ∧
        turn.call ∈ calls past ∧
        (interleaving (past ++ [a])).world.users = (s.execute (interleaving past).world.users).2 := by
  rw [interleaving_concat]
  cases a with
  | dispatch op => exact .inl rfl
  | advance i =>
      rcases idle_or_asks i (interleaving past) with idle | ⟨call, r, next, found⟩
      · exact .inl (by rw [idle])
      · rw [turn_advance found]
        have member : call ∈ calls past := List.mem_map_of_mem (List.mem_of_getElem? found)
        rw [answer_users]
        cases r with
        | sql s => exact .inr ⟨_, s, rfl, rfl, member, rfl⟩
        | _ => exact .inl rfl

/-! ## Rows -/

theorem row_registered {past : List Action} {row : Row} (there : row ∈ (interleaving past).world.users.rows) :
    ∃ op ∈ calls past, ∃ new, op.Registers new ∧ row = new.asTexts := by
  induction past using List.reverseRecOn with
  | nil => simp [interleaving, final, ThreadPool.start, World.empty, Users.rows] at there
  | append_singleton past a ih =>
      have earlier (before : row ∈ (interleaving past).world.users.rows) :
          ∃ op ∈ calls (past ++ [a]), ∃ new, op.Registers new ∧ row = new.asTexts := by
        obtain ⟨op, member, registers⟩ := ih before
        exact ⟨op, (calls_turn past a).subset member, registers⟩
      rcases turn_users past a with same | ⟨turn, s, output, request, member, after⟩
      · exact earlier (same ▸ there)
      · rw [after] at there
        rcases execute_rows there with before | ⟨new, rfl, kept⟩
        · exact earlier before
        · have registers := (contract (past ++ [a])).1 past a [] rfl turn _ output request
          exact ⟨turn.call, (calls_turn past a).subset member, new, registers, kept⟩

/-- In between somebody who is logged in to the account has deleted it. -/
def DeletedByOwner (past later : List Action) (k : StdString) : Prop :=
  ∃ middle a turn uuid u user, past <+: middle ∧ middle ++ [a] <+: later ∧
    (ThreadPool.turn a (interleaving middle)).1 = some turn ∧ turn.request = some (.sql (.delete user.ID)) ∧
    turn.call = .invoke uuid (.deleteUser u) ∧ asText user.ID = k ∧ Authenticated middle uuid user

theorem DeletedByOwner.mono {past later last : List Action} {k : StdString} (deleted : DeletedByOwner past later k)
    (grows : later <+: last) : DeletedByOwner past last k := by
  obtain ⟨middle, a, turn, uuid, u, user, since, within, rest⟩ := deleted
  exact ⟨middle, a, turn, uuid, u, user, since, within.trans grows, rest⟩

theorem account_kept {past later : List Action} {k : StdString} {row : Row} (grows : past <+: later)
    (found : (interleaving past).world.users.find k = some row) :
    (interleaving later).world.users.find k = some row ∨ DeletedByOwner past later k := by
  obtain ⟨rest, rfl⟩ := grows
  induction rest using List.reverseRecOn with
  | nil => exact .inl (by simpa using found)
  | append_singleton rest a ih =>
      rw [← List.append_assoc]
      rcases ih with kept | deleted
      · rcases turn_users (past ++ rest) a with same | ⟨turn, s, output, request, _, after⟩
        · exact .inl (same ▸ kept)
        · rw [after]
          refine (execute_find kept).imp_right fun deletes => ?_
          obtain ⟨id, rfl, rfl⟩ := deletes
          obtain ⟨uuid, u, user, called, _, rfl, authenticated⟩ :=
            (contract (past ++ rest ++ [a])).1 _ a [] rfl turn _ output request
          exact ⟨past ++ rest, a, turn, uuid, u, user, List.prefix_append _ _, List.prefix_rfl, output, request,
            called, rfl, authenticated⟩
      · exact .inr (deleted.mono (List.prefix_append _ _))

/-! ## Every interleaving -/

/-- What is registered for an account stays until somebody logged in to it deletes it. -/
def AccountsKept (actions : List Action) : Prop :=
  ∀ past k row, past <+: actions → (interleaving past).world.users.find k = some row →
    (interleaving actions).world.users.find k = some row ∨ DeletedByOwner past actions k

/-- However the calls are interleaved, also with registrations of the same name, the password and
the public key of an account change only if one of its own sessions deletes it. -/
theorem accounts_kept (actions : List Action) : AccountsKept actions :=
  fun _ _ _ grows found => account_kept grows found

/-- A session agrees with a registration of its account: the login has given the password that the
database keeps of the registration, and the session carries the name of the login and, byte by byte,
what the database keeps of the key that was registered. -/
def SessionsAgree (actions : List Action) : Prop :=
  ∀ uuid session, (interleaving actions).world.servants uuid = some session →
    ∃ registered given pw callbackID con, .registerUser registered pw ∈ calls actions ∧
      .login given (asText pw) callbackID con uuid ∈ calls actions ∧ account given.ID = account registered.ID ∧
      (given.publicKey = [] ∨ given.publicKey.toStdString = asText registered.publicKey.toStdString) ∧
      session.user = ⟨key given.ID, (asText registered.publicKey.toStdString).toByteSeq⟩

/-- However the calls are interleaved, every session agrees with a registration. -/
theorem sessions_agree (actions : List Action) : SessionsAgree actions := by
  intro uuid session servant
  obtain ⟨op, issued, before, first, row, came, within, seen, admits⟩ :=
    sessionsAuthenticated_of_permitted (contract actions).1 uuid session servant
  have stored : row ∈ (interleaving first).world.users.rows := List.mem_of_find?_eq_some seen
  obtain ⟨registration, member, new, registers, rfl⟩ := row_registered stored
  have login : op ∈ calls actions := by
    have called : op ∈ calls (before ++ [.dispatch op]) := by simp [calls_dispatch]
    exact (calls_mono (came.trans within)).subset called
  have registered : registration ∈ calls actions := (calls_mono within).subset member
  cases registration with
  | registerUser v pw =>
      cases op with
      | login u pw' callbackID con uuid' =>
          obtain rfl := Option.some.inj issued
          obtain rfl := registers
          obtain ⟨id, rfl, provided, _, _, user⟩ := admits
          exact ⟨v, u, pw, callbackID, con, registered, by simpa using login, id.symm, by simpa using provided,
            by simpa using user⟩
      | _ => exact admits.elim
  | _ => exact registers.elim

end SecureChat
