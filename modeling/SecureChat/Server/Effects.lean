import SecureChat.Server.Dispatch

/-!
# What each call does

One equation for each kind of call: its result and the world after it, as functions of the row
stored under the key of the account, of the servant called and of the answers of the client.
-/

namespace SecureChat
open Library Body

section
variable [Storage]

/-- The ID under which the table has the account of an ID. -/
def account (id : StdString) : StdString :=
  asText (key id)

/-- The row that the registration of a user leaves in the table. -/
def User.row (u : User) (pw : StdString) : Row :=
  Row.asTexts ⟨key u.ID, pw, u.publicKey.toStdString⟩

@[simp] theorem User.row_id (u : User) (pw : StdString) : (u.row pw).id = account u.ID := rfl
@[simp] theorem User.row_pw (u : User) (pw : StdString) : (u.row pw).pw = asText pw := rfl
@[simp] theorem User.row_pubkey (u : User) (pw : StdString) :
    (u.row pw).pubkey = asText u.publicKey.toStdString := rfl
@[simp] theorem User.row_asTexts (u : User) (pw : StdString) : (u.row pw).asTexts = u.row pw := Row.asTexts_asTexts _

@[simp] theorem asText_account (id : StdString) : asText (account id) = account id :=
  Storage.asText_asText _

@[simp] theorem account_key (id : StdString) : account (key id) = account id :=
  congrArg asText (key_key id)

theorem Users.fetch_key (users : Users) (id : StdString) :
    users.fetch (key id) = (users.find (account id)).map Row.asTexts := rfl

section requests
variable (op : Operation) (w : World)

@[simp] theorem exec_createUsers : Program.exec op.answer createUsers w = (.ok (), w.opened) := rfl

@[simp] theorem exec_selectUser (id : StdString) :
    Program.exec op.answer (selectUser id) w.opened = (.ok (w.users.fetch id), w.opened) := rfl

@[simp] theorem exec_insertUser (row : Row) : Program.exec op.answer (insertUser row) w.opened =
    (.ok (), w.setUsers (some (w.users.rows ++ [row.asTexts]))) := rfl

@[simp] theorem exec_deleteUsers (id : StdString) : Program.exec op.answer (deleteUsers id) w =
    match w.users with
    | none => (.error (.soci .noSuchTable), w)
    | some rows => (.ok (), w.setUsers (some (rows.filter (·.id ≠ asText id)))) := by
  rcases w with ⟨_ | rows, servants⟩ <;> rfl

@[simp] theorem exec_callbackForID (callbackID : Identity) :
    Program.exec op.answer (callbackForID callbackID) w = (op.con.checkedCast callbackID, w) := by
  simp only [callbackForID, ask, Program.exec_bind, Program.exec_ask, Operation.answer]
  cases op.con.checkedCast callbackID <;> rfl

@[simp] theorem exec_echo (callbackID : Identity) (text : StdString) :
    Program.exec op.answer (echo callbackID text) w = (op.con.echo callbackID text, w) := by
  simp only [echo, ask, Program.exec_bind, Program.exec_ask, Operation.answer]
  cases op.con.echo callbackID text <;> rfl

@[simp] theorem exec_exposeObject (session : SessionImpl) :
    Program.exec op.answer (exposeObject session) w =
      if (w.servants op.uuid).isSome then (.error (.ice .alreadyRegistered), w)
      else (.ok op.uuid, w.setServant op.uuid (some session)) := by
  simp only [exposeObject, ask, Program.exec_bind, Program.exec_ask, Operation.answer]
  split <;> rfl

@[simp] theorem exec_setLoggedIn (value : Bool) : Program.exec op.answer (setLoggedIn value) w = (.ok (),
    w.setServant op.uuid ((w.servants op.uuid).map fun session => { session with loggedIn := value })) := rfl

@[simp] theorem exec_info (args : List StdString) : Program.exec op.answer (info args) w = (.ok (), w) := rfl

end requests

/-! ## registerUser -/

theorem perform_registerUser (u : User) (pw : StdString) (w : World) :
    perform (.registerUser u pw) w = match w.users.find (account u.ID) with
      | none => (.ok .void, w.setUsers (some (w.users.rows ++ [u.row pw])))
      | some _ => (.error (AuthenticationException (lit "ID already exists")), w.opened) := by
  have body : AuthenticationImpl.registerUser u pw = (do
      createUsers
      let id : Option StdString := (← selectUser (key u.ID)).map Row.id
      if id.isSome then
        throw (AuthenticationException (lit "ID already exists"))
      insertUser ⟨key u.ID, pw, u.publicKey.toStdString⟩
      info [lit "Registered ", u.ID]) := rfl
  simp only [perform, Operation.body, body, Program.exec_bind, exec_createUsers, exec_selectUser,
    Users.fetch_key]
  cases w.users.find (account u.ID) <;> simp [User.row]

/-! ## login -/

/-- The checks of a login in their order: what is thrown, or the row that passed. -/
def loginCheck (u : User) (pw : StdString) (callbackID : Identity) (con : Connection)
    (found : Option Row) (taken : Bool) : Except Fault Row :=
  match found with
  | none => .error (AuthenticationException (lit "unknown ID"))
  | some stored =>
      if pw ≠ stored.pw then .error (AuthenticationException (lit "invalid password"))
      else if u.publicKey.toStdString ≠ [] ∧ u.publicKey.toStdString ≠ stored.pubkey then
        .error (AuthenticationException (lit "public key can't change"))
      else match con.checkedCast callbackID with
        | .error e => .error e
        | .ok () => match con.echo callbackID (lit "42") with
          | .error e => .error e
          | .ok answer =>
              if answer ≠ lit "42" then .error (AuthenticationException (lit "echo not working"))
              else if taken then .error (.ice .alreadyRegistered)
              else .ok stored

omit [Storage] in
theorem login_eq (u : User) (pw : StdString) (callbackID : Identity) :
    AuthenticationImpl.login u pw callbackID = (do
      createUsers
      match ← selectUser (key u.ID) with
      | none => throw (AuthenticationException (lit "unknown ID"))
      | some stored =>
          if pw ≠ stored.pw then
            throw (AuthenticationException (lit "invalid password"))
          if u.publicKey.toStdString ≠ [] ∧ u.publicKey.toStdString ≠ stored.pubkey then
            throw (AuthenticationException (lit "public key can't change"))
          callbackForID callbackID
          if (← echo callbackID (lit "42")) ≠ lit "42" then
            throw (AuthenticationException (lit "echo not working"))
          info [lit "Logging in ", u.ID]
          exposeObject ⟨true, ⟨key u.ID, StdString.toByteSeq stored.pubkey⟩⟩) := rfl

theorem perform_login (u : User) (pw : StdString) (callbackID : Identity) (con : Connection)
    (uuid : StdString) (w : World) :
    perform (.login u pw callbackID con uuid) w =
      match loginCheck u pw callbackID con (w.users.fetch (key u.ID)) (w.servants uuid).isSome with
      | .error e => (.error e, w.opened)
      | .ok stored => (.ok (.proxy uuid),
          w.opened.setServant uuid (some ⟨true, ⟨key u.ID, StdString.toByteSeq stored.pubkey⟩⟩)) := by
  simp only [perform, Operation.body, login_eq, Program.exec_bind, exec_createUsers, exec_selectUser]
  cases w.users.fetch (key u.ID) with
  | none => simp [loginCheck]
  | some stored =>
      by_cases password : pw ≠ stored.pw
      · simp [loginCheck, password]
      by_cases pubkey : ¬u.publicKey = [] ∧ ¬u.publicKey.toStdString = stored.pubkey
      · simp [loginCheck, password, pubkey]
      cases cast : con.checkedCast callbackID with
      | error e => simp [loginCheck, password, pubkey, Operation.con, cast]
      | ok _ =>
          cases echoed : con.echo callbackID (lit "42") with
          | error e => simp [loginCheck, password, pubkey, Operation.con, cast, echoed]
          | ok text =>
              by_cases good : text = lit "42"
              · by_cases taken : (w.servants uuid).isSome <;>
                  simp [loginCheck, password, pubkey, Operation.con, Operation.uuid, cast, echoed, good,
                    taken, World.opened]
              · simp [loginCheck, password, pubkey, Operation.con, cast, echoed, good]

omit [Storage] in
theorem loginCheck_ok (u : User) (pw : StdString) (callbackID : Identity) (con : Connection)
    (found : Option Row) (taken : Bool) (stored : Row) :
    loginCheck u pw callbackID con found taken = .ok stored ↔
      found = some stored ∧ pw = stored.pw ∧
      (u.publicKey = [] ∨ u.publicKey.toStdString = stored.pubkey) ∧
      con.checkedCast callbackID = .ok () ∧ con.echo callbackID (lit "42") = .ok (lit "42") ∧
      taken = false := by
  cases found with
  | none => simp [loginCheck]
  | some row =>
      by_cases password : pw ≠ row.pw
      · simp only [loginCheck, if_pos password]
        grind
      by_cases pubkey : ¬u.publicKey = [] ∧ ¬u.publicKey.toStdString = row.pubkey
      · simp [loginCheck, password, pubkey]
        grind
      cases cast : con.checkedCast callbackID with
      | error e => simp [loginCheck, password, pubkey, cast]
      | ok _ =>
          cases echoed : con.echo callbackID (lit "42") with
          | error e => simp [loginCheck, password, pubkey, cast, echoed]
          | ok text =>
              by_cases good : text = lit "42"
              · simp [loginCheck, password, pubkey, cast, echoed, good]
                grind
              · simp [loginCheck, password, pubkey, cast, echoed, good]

/-! ## The operations of a session -/

theorem perform_invoke_absent (uuid : StdString) (m : SessionMethod) (w : World)
    (absent : w.servants uuid = none) : perform (.invoke uuid m) w = (.error (.ice .objectNotExist), w) := by
  simp [perform, Operation.body, absent]

variable {uuid : StdString} {session : SessionImpl} {w : World}

theorem perform_logout (called : w.servants uuid = some session) :
    perform (.invoke uuid .logout) w =
      (.ok .void, w.setServant uuid (some { session with loggedIn := false })) := by
  simp [perform, Operation.body, called, SessionImpl.invoke, SessionImpl.logout, Operation.uuid]

def deleteAnswer (own : StdString) (u : User) (users : Users) : Result × Users :=
  if u.ID ≠ own then
    (.error (UserHandlingException (lit "deleting other users is not permitted")), users)
  else match users with
    | none => (.error (UserHandlingException (lit "unknown ID")), none)
    | some rows => (.ok .void, some (rows.filter (·.id ≠ account u.ID)))

omit [Storage] in
theorem deleteUser_eq (session : SessionImpl) (u : User) : session.deleteUser u = (do
    if u.ID ≠ session.user.ID then
      throw (UserHandlingException (lit "deleting other users is not permitted"))
    tryCatch (deleteUsers (key u.ID)) fun
      | .soci _ => throw (UserHandlingException (lit "unknown ID"))
      | e => throw e
    info [session.user.ID, lit " deleted account of ", u.ID]) := rfl

theorem perform_deleteUser (called : w.servants uuid = some session) (u : User) :
    perform (.invoke uuid (.deleteUser u)) w =
      ((deleteAnswer session.user.ID u w.users).1,
        w.setUsers (deleteAnswer session.user.ID u w.users).2) := by
  simp only [perform, Operation.body, called, SessionImpl.invoke, deleteUser_eq, deleteAnswer]
  by_cases own : u.ID = session.user.ID
  · rcases w with ⟨_ | rows, servants⟩ <;> simp [own, World.setUsers, account]
  · simp [own, World.setUsers]

/-- The ten operations that only log a line and return a default value. -/
def SessionMethod.IsStub (m : SessionMethod) : Prop :=
  m ≠ .logout ∧ ∀ u, m ≠ .deleteUser u

theorem perform_stub {m : SessionMethod} (stub : m.IsStub) :
    ∃ value, ∀ uuid session w, w.servants uuid = some session →
      perform (.invoke uuid m) w = (.ok value, w) := by
  cases m with
  | logout => exact absurd rfl stub.1
  | deleteUser u => exact absurd rfl (stub.2 u)
  | retrieveUser userID =>
      exact ⟨.user ⟨[], []⟩, fun _ _ w called => by simp [perform, Operation.body, called]; rfl⟩
  | initChat => exact ⟨.string [], fun _ _ w called => by simp [perform, Operation.body, called]; rfl⟩
  | retrieveLoglist => exact ⟨.loglist [], fun _ _ w called => by simp [perform, Operation.body, called]; rfl⟩
  | retrieveLog chat timestamp =>
      exact ⟨.container ⟨[], []⟩, fun _ _ w called => by simp [perform, Operation.body, called]; rfl⟩
  | retrieveContactList =>
      exact ⟨.container ⟨[], []⟩, fun _ _ w called => by simp [perform, Operation.body, called]; rfl⟩
  | _ => exact ⟨.void, fun _ _ w called => by simp [perform, Operation.body, called]; rfl⟩

/-! ## All calls -/

inductive Step (w : World) : Operation → Result → World → Prop
  | registered (u : User) (pw : StdString) (vacant : w.users.find (account u.ID) = none) :
      Step w (.registerUser u pw) (.ok .void) (w.setUsers (some (w.users.rows ++ [u.row pw])))
  | notRegistered (u : User) (pw : StdString) (e : Fault) : Step w (.registerUser u pw) (.error e) w.opened
  | loggedIn (u : User) (pw : StdString) (callbackID : Identity) (con : Connection) (uuid : StdString)
      (stored : Row) (passed : loginCheck u pw callbackID con (w.users.fetch (key u.ID))
        (w.servants uuid).isSome = .ok stored) :
      Step w (.login u pw callbackID con uuid) (.ok (.proxy uuid))
        (w.opened.setServant uuid (some ⟨true, ⟨key u.ID, StdString.toByteSeq stored.pubkey⟩⟩))
  | notLoggedIn (u : User) (pw : StdString) (callbackID : Identity) (con : Connection) (uuid : StdString)
      (e : Fault) : Step w (.login u pw callbackID con uuid) (.error e) w.opened
  | loggedOut (uuid : StdString) (session : SessionImpl) (called : w.servants uuid = some session) :
      Step w (.invoke uuid .logout) (.ok .void) (w.setServant uuid (some { session with loggedIn := false }))
  | deleted (uuid : StdString) (session : SessionImpl) (called : w.servants uuid = some session) (u : User)
      (own : u.ID = session.user.ID) (rows : List Row) (table : w.users = some rows) :
      Step w (.invoke uuid (.deleteUser u)) (.ok .void) (w.setUsers (some (rows.filter (·.id ≠ account u.ID))))
  | stub (uuid : StdString) (session : SessionImpl) (called : w.servants uuid = some session)
      (m : SessionMethod) (stub : m.IsStub) (value : Value) : Step w (.invoke uuid m) (.ok value) w
  | notInvoked (uuid : StdString) (m : SessionMethod) (e : Fault) : Step w (.invoke uuid m) (.error e) w

theorem perform_step (op : Operation) (w : World) : Step w op (perform op w).1 (perform op w).2 := by
  cases op with
  | registerUser u pw =>
      rw [perform_registerUser]
      cases vacant : w.users.find (account u.ID) with
      | none => exact .registered u pw vacant
      | some row => exact .notRegistered u pw _
  | login u pw callbackID con uuid =>
      rw [perform_login]
      cases passed : loginCheck u pw callbackID con (w.users.fetch (key u.ID)) (w.servants uuid).isSome with
      | error e => exact .notLoggedIn u pw callbackID con uuid e
      | ok stored => exact .loggedIn u pw callbackID con uuid stored passed
  | invoke uuid m =>
      cases called : w.servants uuid with
      | none =>
          rw [perform_invoke_absent uuid m w called]
          exact .notInvoked uuid m _
      | some session =>
          by_cases stub : m.IsStub
          · obtain ⟨value, answers⟩ := perform_stub stub
            rw [answers uuid session w called]
            exact .stub uuid session called m stub value
          cases m with
          | logout =>
              rw [perform_logout called]
              exact .loggedOut uuid session called
          | deleteUser u =>
              rw [perform_deleteUser called]
              by_cases own : u.ID = session.user.ID
              · rcases w with ⟨_ | rows, servants⟩
                · simp only [deleteAnswer, own, ne_eq, not_true_eq_false, ↓reduceIte]
                  exact .notInvoked uuid _ _
                · simp only [deleteAnswer, own, ne_eq, not_true_eq_false, ↓reduceIte]
                  rw [← own]
                  exact .deleted uuid session called u own rows rfl
              · simp only [deleteAnswer, own, ne_eq, not_false_eq_true, ↓reduceIte]
                exact .notInvoked uuid _ _
          | _ => exact absurd ⟨by simp, by simp⟩ stub

end
end SecureChat
