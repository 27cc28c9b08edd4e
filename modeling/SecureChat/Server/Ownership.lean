import SecureChat.Server.Sessions

/-!
# What a session may delete

A session may delete the account that it was issued for. `deleteUser` decides this by comparing
the ID it is given with the ID in the session, which is a key; it neither takes the key of its
argument first nor knows which registration of the key the login was checked against.
-/

namespace SecureChat
open Library

def Connection.echoing : Connection := ⟨fun _ => .ok (), fun _ text => .ok text⟩

section
variable [Storage]

/-! ## Other accounts are refused -/

def deletionRefused : Result :=
  .error (UserHandlingException (lit "deleting other users is not permitted"))

theorem deleteUser_refused {uuid : StdString} {session : SessionImpl} {w : World}
    (called : w.servants uuid = some session) (u : User) :
    (perform (.invoke uuid (.deleteUser u)) w).1 = deletionRefused ↔ u.ID ≠ session.user.ID := by
  rw [perform_deleteUser called]
  by_cases own : u.ID = session.user.ID
  · have other : ¬ UserHandlingException (lit "unknown ID") =
        UserHandlingException (lit "deleting other users is not permitted") := by decide
    cases w.users <;> simp [deleteAnswer, deletionRefused, own, other]
  · simp [deleteAnswer, deletionRefused, own]

omit [Storage] in
theorem id_ne_iff_key_ne {k : StdString} (normal : key k = k) (id : StdString) :
    (id ≠ k ↔ key id ≠ k) ↔ ¬ (isValidID id = true ∧ getNameFromID id = k) := by
  by_cases valid : isValidID id = true
  · have differ : id ≠ k := by
      intro same
      rw [same, ← normal, isValidID_key] at valid
      contradiction
    simp [key, valid, differ]
  · rw [key_of_invalid (by simpa using valid)]
    simp [valid]

theorem refused_iff_other_account (u₀ : User) (pw : StdString) (callbackID : Identity) (con : Connection)
    (uuid : StdString) (start : World) (value : Value)
    (returned : (perform (.login u₀ pw callbackID con uuid) start).1 = .ok value)
    (later : List Operation) (u : User) :
    ((perform (.invoke uuid (.deleteUser u))
        (final perform (perform (.login u₀ pw callbackID con uuid) start).2 later)).1 = deletionRefused ↔
      key u.ID ≠ key u₀.ID) ↔
    ¬ (isValidID u.ID = true ∧ getNameFromID u.ID = key u₀.ID) := by
  obtain ⟨_, stored, _, issued⟩ := login_issues returned
  obtain ⟨session, called, same⟩ := session_user issued later
  rw [deleteUser_refused called, same]
  exact id_ne_iff_key_ne (key_key u₀.ID) u.ID

end

def alice : User := ⟨lit "alice", []⟩

def aliceAtHome : User := ⟨lit "alice@home", []⟩

def aliceLogin (u : User) (pw uuid : StdString) : Operation :=
  .login u pw ⟨lit "callback", []⟩ .echoing uuid

theorem refused_iff_other_account_alice :
    ((perform (.invoke (lit "s") (.deleteUser alice))
        (final perform (perform (aliceLogin aliceAtHome (lit "pw") (lit "s"))
          (world [.registerUser alice (lit "pw")])).2 [])).1 = deletionRefused ↔
      key alice.ID ≠ key aliceAtHome.ID) ↔
    ¬ (isValidID alice.ID = true ∧ getNameFromID alice.ID = key aliceAtHome.ID) :=
  refused_iff_other_account _ _ _ _ _ _ (.proxy (lit "s")) (by decide) [] alice

theorem full_id_refused_own_account :
    ¬ (∀ (u₀ : User) (pw : StdString) (callbackID : Identity) (con : Connection) (uuid : StdString)
        (ops later : List Operation) (value : Value),
      (perform (.login u₀ pw callbackID con uuid) (world ops)).1 = .ok value → ∀ u : User,
      ((perform (.invoke uuid (.deleteUser u))
        (final perform (perform (.login u₀ pw callbackID con uuid) (world ops)).2 later)).1 = deletionRefused ↔
      key u.ID ≠ key u₀.ID)) := by
  intro claim
  have same := claim aliceAtHome (lit "pw") ⟨lit "callback", []⟩ .echoing (lit "s")
    [.registerUser aliceAtHome (lit "pw")] [] (.proxy (lit "s")) (by decide) aliceAtHome
  revert same
  decide

/-! ## Accounts registered anew -/

section
variable [Storage]

/-- Whatever row a `deleteUser` of the run removes, the registration that inserted it is the one
in force when the login that issued the session was checked. -/
def DeletesOnlyOwnRegistration (ops : List Operation) : Prop :=
  ∀ before u pw callbackID con uuid mid v post,
    ops = before ++ .login u pw callbackID con uuid :: mid ++ .invoke uuid (.deleteUser v) :: post →
    (perform (.login u pw callbackID con uuid) (world before)).1 = .ok (.proxy uuid) →
    let now := before ++ .login u pw callbackID con uuid :: mid
    ∀ row ∈ (world now).users.rows,
      row ∉ (perform (.invoke uuid (.deleteUser v)) (world now)).2.users.rows →
      registration (past now) row.id = registration (past before) (account u.ID)

def NoDeletionOnceRegisteredAnew (ops : List Operation) : Prop :=
  ∀ before u pw callbackID con uuid mid v post,
    ops = before ++ .login u pw callbackID con uuid :: mid ++ .invoke uuid (.deleteUser v) :: post →
    (perform (.login u pw callbackID con uuid) (world before)).1 = .ok (.proxy uuid) →
    v.ID = key u.ID →
    ∀ r pw', ¬ Registered (history perform (world (before ++ [.login u pw callbackID con uuid])) mid)
      (account u.ID) r pw'

theorem registration_of_since {h : Past} {k : StdString} (since : Past) :
    (∃ u pw, Registered since k u pw) → ∃ r, registration (h ++ since) k = some r ∧ h.length ≤ r.call := by
  induction since using List.reverseRecOn with
  | nil =>
      intro anew
      obtain ⟨u, pw, registered⟩ := anew
      exact absurd registered (not_registered_nil k u pw)
  | append_singleton since m ih =>
      intro anew
      obtain ⟨u, pw, registered⟩ := anew
      rw [← List.append_assoc]
      rcases (registered_concat ..).mp registered with registers | ⟨earlier, kept⟩
      · exact ⟨_, registration_of_registers registers, by simp⟩
      by_cases again : ∃ u pw, Registers m k u pw
      · obtain ⟨u, pw, registers⟩ := again
        exact ⟨_, registration_of_registers registers, by simp⟩
      · rw [registration_of_neither (fun u pw registers => again ⟨u, pw, registers⟩) kept]
        exact ih ⟨u, pw, earlier⟩

theorem registration_of_not_since {h : Past} {k : StdString} (since : Past) :
    (∀ u pw, ¬ Registered since k u pw) →
      registration (h ++ since) k = registration h k ∨ registration (h ++ since) k = none := by
  induction since using List.reverseRecOn with
  | nil => exact fun _ => .inl (by simp)
  | append_singleton since m ih =>
      intro unregistered
      rw [← List.append_assoc]
      by_cases deletes : Deletes m k
      · exact .inr (registration_of_deletes deletes)
      have quiet (u : User) (pw : StdString) : ¬ Registers m k u pw :=
        fun registers => unregistered u pw ((registered_concat ..).mpr (.inl registers))
      rw [registration_of_neither quiet deletes]
      exact ih fun u pw earlier => unregistered u pw ((registered_concat ..).mpr (.inr ⟨earlier, deletes⟩))

theorem removed_row {uuid : StdString} {session : SessionImpl} {w : World}
    (called : w.servants uuid = some session) (v : User) {row : Row} (stored : row ∈ w.users.rows)
    (removed : row ∉ (perform (.invoke uuid (.deleteUser v)) w).2.users.rows) :
    v.ID = session.user.ID ∧ row.id = account v.ID := by
  rw [perform_deleteUser called] at removed
  by_cases own : v.ID = session.user.ID
  · refine ⟨own, ?_⟩
    rcases w with ⟨_ | rows, servants⟩
    · simp [Users.rows] at stored
    · simp only [deleteAnswer, own, Users.rows, Option.getD_some] at stored removed
      simp only [ne_eq, not_true_eq_false, ↓reduceIte, World.setUsers_users, Option.getD_some,
        List.mem_filter, stored, true_and, decide_eq_true_eq, not_not] at removed
      rw [removed, own]
  · simp [deleteAnswer, own, stored] at removed

theorem own_deletion {uuid : StdString} {session : SessionImpl} {w : World}
    (called : w.servants uuid = some session) {v : User} (own : v.ID = session.user.ID) :
    (perform (.invoke uuid (.deleteUser v)) w).2.users.rowsOf (account v.ID) = [] := by
  rw [perform_deleteUser called]
  rcases w with ⟨_ | rows, servants⟩
  · simp [deleteAnswer, own, Users.rowsOf, Users.rows]
  · simp only [deleteAnswer, own, ne_eq, not_true_eq_false, ↓reduceIte, World.setUsers_users]
    exact (Users.rowsOf_delete ..).trans (if_pos rfl)

section
variable (before mid : List Operation) (u : User) (pw : StdString) (callbackID : Identity) (con : Connection)
  (uuid : StdString)

theorem past_login_mid : past (before ++ .login u pw callbackID con uuid :: mid) =
    past (before ++ [.login u pw callbackID con uuid]) ++
      history perform (world (before ++ [.login u pw callbackID con uuid])) mid := by
  rw [← history_append, List.append_assoc]
  rfl

theorem registration_login (k : StdString) :
    registration (past (before ++ [.login u pw callbackID con uuid])) k = registration (past before) k := by
  rw [past, history_concat]
  exact registration_of_neither (by simp [Registers, moment]) (by simp [Deletes, moment])

variable {before u pw callbackID con uuid}

theorem session_since_login
    (returned : (perform (.login u pw callbackID con uuid) (world before)).1 = .ok (.proxy uuid)) :
    ∃ session, (world (before ++ .login u pw callbackID con uuid :: mid)).servants uuid = some session ∧
      session.user.ID = key u.ID := by
  obtain ⟨_, stored, _, issued⟩ := login_issues returned
  obtain ⟨session, called, same⟩ := session_user issued mid
  rw [world, final_append]
  exact ⟨session, called, by rw [same]⟩

end

theorem deletesOnlyOwnRegistration_iff (ops : List Operation) :
    DeletesOnlyOwnRegistration ops ↔ NoDeletionOnceRegisteredAnew ops := by
  constructor
  · intro claim before u pw callbackID con uuid mid v post split returned own r pw' anew
    obtain ⟨session, called, same⟩ := session_since_login mid returned
    obtain ⟨reg, inForce, late⟩ :=
      registration_of_since (h := past (before ++ [.login u pw callbackID con uuid])) _ ⟨r, pw', anew⟩
    rw [← past_login_mid] at inForce
    have rows := (consistent (before ++ .login u pw callbackID con uuid :: mid) (account u.ID)).rows
    have inserted : reg.row ∈
        (world (before ++ .login u pw callbackID con uuid :: mid)).users.rowsOf (account u.ID) := by
      simp [rows, inForce]
    obtain ⟨stored, id⟩ := Users.mem_rowsOf.mp inserted
    have removed := own_deletion called (own.trans same.symm)
    rw [own, account_key] at removed
    have sameCall := claim before u pw callbackID con uuid mid v post split returned reg.row stored
      (fun kept => by simpa [removed] using Users.mem_rowsOf.mpr ⟨kept, id⟩)
    -- the row was inserted after the login, but the login was checked against an earlier one
    rw [id, inForce] at sameCall
    have early : reg.call < before.length := by
      simpa using registration_call_lt sameCall.symm
    simp at late
    omega
  · intro condition before u pw callbackID con uuid mid v post split returned now row stored removed
    obtain ⟨session, called, same⟩ := session_since_login mid returned
    obtain ⟨own, id⟩ := removed_row called v stored removed
    rw [own, same, account_key] at id
    obtain ⟨r, found, _⟩ := stored_row now stored
    rw [id] at found ⊢
    have unregistered :=
      condition before u pw callbackID con uuid mid v post split returned (own.trans same)
    have kept :=
      registration_of_not_since (h := past (before ++ [.login u pw callbackID con uuid])) _ unregistered
    rw [← past_login_mid, registration_login] at kept
    rcases kept with kept | gone
    · exact kept
    · rw [found] at gone
      contradiction

end

theorem deletes_account_registered_anew :
    ¬ DeletesOnlyOwnRegistration
      [.registerUser alice (lit "pw"), aliceLogin alice (lit "pw") (lit "s"),
        .invoke (lit "s") (.deleteUser alice), .registerUser alice (lit "new"),
        .invoke (lit "s") (.deleteUser alice)] := by
  intro claim
  have same := claim [.registerUser alice (lit "pw")] alice (lit "pw") ⟨lit "callback", []⟩ .echoing (lit "s")
    [.invoke (lit "s") (.deleteUser alice), .registerUser alice (lit "new")] alice [] rfl (by decide)
    ⟨lit "alice", lit "new", []⟩ (by decide) (by decide)
  have calls := congrArg (Option.map Registration.call) same
  revert calls
  decide

end SecureChat
