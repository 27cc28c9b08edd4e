import SecureChat.Server.Accounts

/-!
# Sessions

A session keeps the user it was issued for as long as the server runs: only its `loggedIn` flag is
ever written, and no operation of a session reads that flag.
-/

namespace SecureChat
open Library

section
variable [Storage]

theorem servants_step (op : Operation) (w : World) (uuid : StdString) :
    (perform op w).2.servants uuid = w.servants uuid ∨
    (∃ u pw callbackID con stored, op = .login u pw callbackID con uuid ∧ w.servants uuid = none ∧
      loginCheck u pw callbackID con (w.users.fetch (key u.ID)) false = .ok stored ∧
      (perform op w).2.servants uuid = some ⟨true, ⟨key u.ID, StdString.toByteSeq stored.pubkey⟩⟩) ∨
    (∃ session, op = .invoke uuid .logout ∧ w.servants uuid = some session ∧
      (perform op w).2.servants uuid = some { session with loggedIn := false }) := by
  generalize result : perform op w = done
  have step := perform_step op w
  rw [result] at step
  rcases done with ⟨output, after⟩
  dsimp only at step ⊢
  cases step with
  | loggedIn u pw callbackID con issued stored passed =>
      by_cases same : uuid = issued
      · subst same
        have free := ((loginCheck_ok ..).mp passed).2.2.2.2.2
        rw [free] at passed
        exact .inr (.inl ⟨u, pw, callbackID, con, stored, rfl, by simpa using free, passed, by simp⟩)
      · exact .inl (by simp [same, World.opened])
  | loggedOut out session called =>
      by_cases same : uuid = out
      · subst same
        exact .inr (.inr ⟨session, rfl, called, by simp⟩)
      · exact .inl (by simp [same])
  | _ => exact .inl rfl

theorem session_user_step {uuid : StdString} {session : SessionImpl} {w : World}
    (issued : w.servants uuid = some session) (op : Operation) :
    ∃ later, (perform op w).2.servants uuid = some later ∧ later.user = session.user := by
  rcases servants_step op w uuid with same | ⟨_, _, _, _, _, _, free, _⟩ | ⟨found, _, called, out⟩
  · exact ⟨session, same.trans issued, rfl⟩
  · rw [free] at issued
    contradiction
  · rw [issued, Option.some.injEq] at called
    exact ⟨_, out, by simp [called]⟩

theorem session_user {uuid : StdString} {session : SessionImpl} {w : World}
    (issued : w.servants uuid = some session) (ops : List Operation) :
    ∃ later, (final perform w ops).servants uuid = some later ∧ later.user = session.user := by
  refine final_rule perform (fun w => ∃ later, w.servants uuid = some later ∧ later.user = session.user)
    ⟨session, issued, rfl⟩ ?_ ops
  intro w op current
  obtain ⟨now, called, same⟩ := current
  obtain ⟨later, found, kept⟩ := session_user_step called op
  exact ⟨later, found, kept.trans same⟩

theorem login_issues {u : User} {pw : StdString} {callbackID : Identity} {con : Connection}
    {uuid : StdString} {w : World} {value : Value}
    (returned : (perform (.login u pw callbackID con uuid) w).1 = .ok value) :
    value = .proxy uuid ∧ ∃ stored, w.users.fetch (key u.ID) = some stored ∧
      (perform (.login u pw callbackID con uuid) w).2.servants uuid =
        some ⟨true, ⟨key u.ID, StdString.toByteSeq stored.pubkey⟩⟩ := by
  rw [perform_login] at returned ⊢
  cases passed : loginCheck u pw callbackID con (w.users.fetch (key u.ID)) (w.servants uuid).isSome with
  | error e => simp [passed] at returned
  | ok stored =>
      simp only [passed, Except.ok.injEq] at returned
      exact ⟨returned.symm, stored, ((loginCheck_ok ..).mp passed).1, by simp⟩

theorem deletion_own {uuid : StdString} {u : User} {w : World} {value : Value}
    (returned : (perform (.invoke uuid (.deleteUser u)) w).1 = .ok value) :
    ∃ session, w.servants uuid = some session ∧ u.ID = session.user.ID := by
  cases called : w.servants uuid with
  | none => simp [perform_invoke_absent uuid _ w called] at returned
  | some session =>
      refine ⟨session, rfl, not_not.mp fun other => ?_⟩
      simp [perform_deleteUser called, deleteAnswer, other] at returned

/-! ## Sessions of a running server -/

def SessionsSound (w : World) : Prop :=
  ∀ uuid session, w.servants uuid = some session → key session.user.ID = session.user.ID ∧ w.users.isSome

theorem users_isSome_step {w : World} (table : w.users.isSome) (op : Operation) :
    (perform op w).2.users.isSome := by
  generalize result : perform op w = done
  have step := perform_step op w
  rw [result] at step
  rcases done with ⟨output, after⟩
  cases step with
  | loggedOut | stub | notInvoked => exact table
  | _ => rfl

theorem sessionsSound_step {w : World} (sound : SessionsSound w) (op : Operation) :
    SessionsSound (perform op w).2 := by
  intro uuid session found
  rcases servants_step op w uuid with same | ⟨u, pw, callbackID, con, stored, rfl, _, passed, issued⟩ |
      ⟨before, _, called, out⟩
  · rw [same] at found
    exact ⟨(sound uuid session found).1, users_isSome_step (sound uuid session found).2 op⟩
  · rw [issued, Option.some.injEq] at found
    subst found
    refine ⟨key_key u.ID, users_isSome_step ?_ _⟩
    have stored := ((loginCheck_ok ..).mp passed).1
    cases table : w.users with
    | none => simp [Users.fetch, Users.find, Users.rows, table] at stored
    | some rows => rfl
  · rw [out, Option.some.injEq] at found
    subst found
    exact ⟨(sound uuid before called).1, users_isSome_step (sound uuid before called).2 op⟩

theorem sessionsSound (ops : List Operation) : SessionsSound (world ops) :=
  final_rule perform SessionsSound (by simp [SessionsSound, World.empty])
    (fun _ op sound => sessionsSound_step sound op) ops

end
end SecureChat
