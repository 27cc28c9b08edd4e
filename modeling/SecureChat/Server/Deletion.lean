import SecureChat.Server.Ownership

/-!
# What a deletion answers

`deleteUser` answers "unknown ID" when the database fails, which it only does while there is no
table. A `DELETE` that matches no row does not fail, so a session whose account is already gone is
told that it was deleted.
-/

namespace SecureChat
open Library

section
variable [Storage]

/-- `deleteUser` returns normally exactly when the account has a row. It then removes the rows of
the account and no other row, and else throws and leaves the table alone. -/
structure AnswersTruthfully (uuid : StdString) (u : User) (w : World) : Prop where
  returns : (∃ value, (perform (.invoke uuid (.deleteUser u)) w).1 = .ok value) ↔
    w.users.rowsOf (account u.ID) ≠ []
  removes : (∃ value, (perform (.invoke uuid (.deleteUser u)) w).1 = .ok value) →
    (perform (.invoke uuid (.deleteUser u)) w).2.users.rows = w.users.rows.filter (·.id ≠ account u.ID)
  otherwise : (¬ ∃ value, (perform (.invoke uuid (.deleteUser u)) w).1 = .ok value) →
    (∃ what, (perform (.invoke uuid (.deleteUser u)) w).1 = .error (UserHandlingException what)) ∧
    (perform (.invoke uuid (.deleteUser u)) w).2.users = w.users

def DeletionsTruthful (ops : List Operation) : Prop :=
  ∀ before u pw callbackID con uuid mid v post,
    ops = before ++ .login u pw callbackID con uuid :: mid ++ .invoke uuid (.deleteUser v) :: post →
    (perform (.login u pw callbackID con uuid) (world before)).1 = .ok (.proxy uuid) →
    v.ID = key u.ID →
    AnswersTruthfully uuid v (world (before ++ .login u pw callbackID con uuid :: mid))

def OnlyRegisteredDeleted (ops : List Operation) : Prop :=
  ∀ before u pw callbackID con uuid mid v post,
    ops = before ++ .login u pw callbackID con uuid :: mid ++ .invoke uuid (.deleteUser v) :: post →
    (perform (.login u pw callbackID con uuid) (world before)).1 = .ok (.proxy uuid) →
    v.ID = key u.ID →
    ∃ r pw', Registered (past (before ++ .login u pw callbackID con uuid :: mid)) (account u.ID) r pw'

theorem own_deletion_eq {uuid : StdString} {session : SessionImpl} {w : World} {v : User} {rows : List Row}
    (called : w.servants uuid = some session) (own : v.ID = session.user.ID) (table : w.users = some rows) :
    perform (.invoke uuid (.deleteUser v)) w =
      (.ok .void, w.setUsers (some (rows.filter (·.id ≠ account v.ID)))) := by
  rw [perform_deleteUser called, table]
  simp [deleteAnswer, own]

theorem answersTruthfully_iff {uuid : StdString} {session : SessionImpl} {w : World} {v : User}
    (called : w.servants uuid = some session) (own : v.ID = session.user.ID) (table : w.users.isSome) :
    AnswersTruthfully uuid v w ↔ w.users.rowsOf (account v.ID) ≠ [] := by
  obtain ⟨rows, stored⟩ := Option.isSome_iff_exists.mp table
  have done := own_deletion_eq called own stored
  constructor
  · intro truthful
    exact truthful.returns.mp ⟨.void, by rw [done]⟩
  · intro present
    constructor
    · exact ⟨fun _ => present, fun _ => ⟨.void, by rw [done]⟩⟩
    · intro _
      rw [done, stored]
      rfl
    · intro failed
      exact absurd ⟨.void, by rw [done]⟩ failed

theorem registered_iff_rowsOf (ops : List Operation) (k : StdString) :
    (∃ r pw, Registered (past ops) k r pw) ↔ (world ops).users.rowsOf k ≠ [] := by
  simp only [registered_iff, (consistent ops k).rows]
  constructor
  · intro registered
    obtain ⟨u, pw, call, found⟩ := registered
    simp [found]
  · intro present
    cases found : registration (past ops) k with
    | none => simp [found] at present
    | some r => exact ⟨r.user, r.pw, r.call, rfl⟩

theorem deletionsTruthful_iff (ops : List Operation) : DeletionsTruthful ops ↔ OnlyRegisteredDeleted ops := by
  have each (before mid : List Operation) (u : User) (pw : StdString) (callbackID : Identity)
      (con : Connection) (uuid : StdString) (v : User)
      (returned : (perform (.login u pw callbackID con uuid) (world before)).1 = .ok (.proxy uuid))
      (own : v.ID = key u.ID) :
      AnswersTruthfully uuid v (world (before ++ .login u pw callbackID con uuid :: mid)) ↔
        ∃ r pw', Registered (past (before ++ .login u pw callbackID con uuid :: mid)) (account u.ID) r pw' := by
    obtain ⟨session, called, same⟩ := session_since_login mid returned
    have table := (sessionsSound _ uuid session called).2
    rw [answersTruthfully_iff called (own.trans same.symm) table, own, account_key, registered_iff_rowsOf]
  constructor
  · intro claim before u pw callbackID con uuid mid v post split returned own
    exact (each before mid u pw callbackID con uuid v returned own).mp
      (claim before u pw callbackID con uuid mid v post split returned own)
  · intro condition before u pw callbackID con uuid mid v post split returned own
    exact (each before mid u pw callbackID con uuid v returned own).mpr
      (condition before u pw callbackID con uuid mid v post split returned own)

end

theorem deletes_twice :
    ¬ DeletionsTruthful [.registerUser alice (lit "pw"), aliceLogin alice (lit "pw") (lit "s"),
      .invoke (lit "s") (.deleteUser alice), .invoke (lit "s") (.deleteUser alice)] := by
  intro claim
  have answers := claim [.registerUser alice (lit "pw")] alice (lit "pw") ⟨lit "callback", []⟩ .echoing
    (lit "s") [.invoke (lit "s") (.deleteUser alice)] alice [] rfl (by decide) (by decide)
  apply answers.returns.mp ⟨.void, by decide⟩
  decide

end SecureChat
