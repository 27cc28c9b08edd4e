import SecureChat.Server.Ownership

/-!
# Sessions after logout

`logout` clears `loggedIn`, but no operation reads the flag: a session answers after `logout` as it
did before. The only calls that throw are deletions that are refused for another reason.
-/

namespace SecureChat
open Library

section
variable [Storage]

def Rejected (op : Operation) (w : World) : Prop :=
  (∃ e, (perform op w).1 = .error e ∧ e.isSessionException = true) ∧ (perform op w).2.users = w.users

theorem rejected_iff {uuid : StdString} {session : SessionImpl} {w : World} (table : w.users.isSome)
    (called : w.servants uuid = some session) (method : SessionMethod) :
    Rejected (.invoke uuid method) w ↔ ∃ u, method = .deleteUser u ∧ u.ID ≠ session.user.ID := by
  by_cases stub : method.IsStub
  · obtain ⟨value, answers⟩ := perform_stub stub
    have keep : ¬ ∃ u, method = .deleteUser u ∧ u.ID ≠ session.user.ID := fun ⟨u, same, _⟩ => stub.2 u same
    simp [Rejected, answers uuid session w called, keep]
  cases method with
  | logout => simp [Rejected, perform_logout called]
  | deleteUser u =>
      rw [Rejected, perform_deleteUser called]
      by_cases own : u.ID = session.user.ID
      · obtain ⟨rows, stored⟩ := Option.isSome_iff_exists.mp table
        simp [deleteAnswer, own, stored]
      · simp [deleteAnswer, own, Fault.isSessionException, ExceptionClass.parent]
  | _ => exact absurd ⟨by simp, by simp⟩ stub

def RejectsAfterLogout (ops : List Operation) : Prop :=
  ∀ before uuid mid method post,
    ops = before ++ .invoke uuid .logout :: mid ++ .invoke uuid method :: post →
    (∃ value, (perform (.invoke uuid .logout) (world before)).1 = .ok value) →
    Rejected (.invoke uuid method) (world (before ++ .invoke uuid .logout :: mid))

def OnlyForeignDeletionsAfterLogout (ops : List Operation) : Prop :=
  ∀ before uuid mid method post,
    ops = before ++ .invoke uuid .logout :: mid ++ .invoke uuid method :: post →
    ∀ session, (world before).servants uuid = some session →
      ∃ u, method = .deleteUser u ∧ u.ID ≠ session.user.ID

theorem rejectsAfterLogout_iff (ops : List Operation) :
    RejectsAfterLogout ops ↔ OnlyForeignDeletionsAfterLogout ops := by
  have each (before mid : List Operation) (uuid : StdString) (session : SessionImpl) (method : SessionMethod)
      (called : (world before).servants uuid = some session) :
      Rejected (.invoke uuid method) (world (before ++ .invoke uuid .logout :: mid)) ↔
        ∃ u, method = .deleteUser u ∧ u.ID ≠ session.user.ID := by
    obtain ⟨later, found, same⟩ := session_user called (.invoke uuid .logout :: mid)
    rw [← final_append] at found
    have table := (sessionsSound _ uuid later found).2
    rw [rejected_iff table found method, same]
  constructor
  · intro claim before uuid mid method post split session called
    exact (each before mid uuid session method called).mp
      (claim before uuid mid method post split ⟨.void, by rw [perform_logout called]⟩)
  · intro condition before uuid mid method post split returns
    obtain ⟨value, returned⟩ := returns
    cases called : (world before).servants uuid with
    | none => simp [perform_invoke_absent uuid _ _ called] at returned
    | some session =>
        exact (each before mid uuid session method called).mpr
          (condition before uuid mid method post split session called)

end

theorem deletes_account_after_logout :
    ¬ RejectsAfterLogout [.registerUser alice (lit "pw"), aliceLogin alice (lit "pw") (lit "s"),
      .invoke (lit "s") .logout, .invoke (lit "s") (.deleteUser alice)] := by
  intro claim
  obtain ⟨_, unchanged⟩ := claim [.registerUser alice (lit "pw"), aliceLogin alice (lit "pw") (lit "s")]
    (lit "s") [] (.deleteUser alice) [] rfl ⟨.void, by decide⟩
  revert unchanged
  decide

end SecureChat
