import SecureChat.Server.Credentials

/-!
# Accounts do not interfere

What the calls on one account return, and the rows stored under it, stay the same when every call
on other accounts is purged from the run. The proof relates the world of the run to the world of
the purged run, account by account.
-/

namespace SecureChat
open Library

/-- The calls on the account `A`, if `accountOf` gives the account of an ID: registrations, logins,
and operations of sessions unless the session has been issued to another account. -/
def concerns (accountOf : StdString → StdString) (A : StdString) (issued : World) : Operation → Bool
  | .registerUser u _ => accountOf u.ID = A
  | .login u _ _ _ _ => accountOf u.ID = A
  | .invoke uuid _ => match issued.servants uuid with
      | some session => accountOf session.user.ID = A
      | none => true

section
variable [Storage]

def accountView (A : StdString) (m : Moment World Operation Result) : List Row × Result × List Row :=
  (m.before.users.rowsOf A, m.output, m.after.users.rowsOf A)

/-- The calls on `A` return the same, and see and leave the same rows of `A`, in a run and in the
run without its other calls. -/
def Isolated (accountOf : StdString → StdString) (run : Run) (A : StdString) : Prop :=
  let kept := concerns accountOf A (world run.ops)
  ((past run.ops).filter (kept ·.action)).map (accountView A) =
    (past (run.ops.filter kept)).map (accountView A)

/-- The run is in the world `w` with the calls `rest` to come, and the purged run is in `purged`. -/
structure Related (A : StdString) (issued : World) (rest : List Operation) (w purged : World) : Prop where
  toCome : final perform w rest = issued
  fresh : (rest.filterMap Operation.exposes).Nodup
  free : ∀ uuid ∈ rest.filterMap Operation.exposes, w.servants uuid = none ∧ purged.servants uuid = none
  sound : SessionsSound w
  soundPurged : SessionsSound purged
  rows : w.users.rowsOf A = purged.users.rowsOf A
  sessions : ∀ uuid, (∀ session, issued.servants uuid = some session → account session.user.ID = A) →
    w.servants uuid = purged.servants uuid

section
variable {A : StdString} {issued w purged : World} {op : Operation} {rest : List Operation}

/-! ## Calls on the account -/

def Alike (A : StdString) (op : Operation) (w purged : World) : Prop :=
  (perform op w).1 = (perform op purged).1 ∧
  (perform op w).2.users.rowsOf A = (perform op purged).2.users.rowsOf A ∧
  ∀ uuid, w.servants uuid = purged.servants uuid →
    (perform op w).2.servants uuid = (perform op purged).2.servants uuid

omit [Storage] in
theorem find_of_rowsOf {users users' : Users} {id : StdString} (same : users.rowsOf id = users'.rowsOf id) :
    users.find id = users'.find id := by
  rw [Users.find_eq_head?, Users.find_eq_head?, same]

theorem alike_registerUser (rows : w.users.rowsOf A = purged.users.rowsOf A) {u : User} (own : account u.ID = A)
    (pw : StdString) : Alike A (.registerUser u pw) w purged := by
  subst own
  unfold Alike
  rw [perform_registerUser, perform_registerUser, ← find_of_rowsOf rows]
  cases w.users.find (account u.ID) with
  | some row => exact ⟨rfl, rows, fun _ same => same⟩
  | none =>
      refine ⟨rfl, ?_, fun _ same => same⟩
      simp only [World.setUsers_users, Users.rowsOf_insert]
      exact congrArg (· ++ _) rows

theorem alike_login (rows : w.users.rowsOf A = purged.users.rowsOf A) {u : User} (own : account u.ID = A)
    (pw : StdString) (callbackID : Identity) (con : Connection) {uuid : StdString}
    (free : w.servants uuid = none) (freePurged : purged.servants uuid = none) :
    Alike A (.login u pw callbackID con uuid) w purged := by
  subst own
  unfold Alike
  rw [perform_login, perform_login, Users.fetch_key, Users.fetch_key, ← find_of_rowsOf rows, free, freePurged]
  cases loginCheck u pw callbackID con ((w.users.find (account u.ID)).map Row.asTexts) (none : Option SessionImpl).isSome with
  | error e => exact ⟨rfl, rows, fun _ same => same⟩
  | ok stored =>
      refine ⟨rfl, rows, fun other same => ?_⟩
      simp [World.opened, same]

theorem alike_invoke (rows : w.users.rowsOf A = purged.users.rowsOf A) (sound : SessionsSound w)
    (soundPurged : SessionsSound purged) {uuid : StdString} (same : w.servants uuid = purged.servants uuid)
    (own : ∀ session, w.servants uuid = some session → account session.user.ID = A) (m : SessionMethod) :
    Alike A (.invoke uuid m) w purged := by
  unfold Alike
  cases called : w.servants uuid with
  | none =>
      rw [perform_invoke_absent uuid m w called, perform_invoke_absent uuid m purged (same ▸ called)]
      exact ⟨rfl, rows, fun _ same => same⟩
  | some session =>
      have calledPurged : purged.servants uuid = some session := same ▸ called
      by_cases stub : m.IsStub
      · obtain ⟨value, answers⟩ := perform_stub stub
        rw [answers uuid session w called, answers uuid session purged calledPurged]
        exact ⟨rfl, rows, fun _ same => same⟩
      cases m with
      | logout =>
          rw [perform_logout called, perform_logout calledPurged]
          exact ⟨rfl, rows, fun other same => by simp [same]⟩
      | deleteUser u =>
          obtain ⟨stored, table⟩ := Option.isSome_iff_exists.mp (sound uuid session called).2
          obtain ⟨storedPurged, tablePurged⟩ :=
            Option.isSome_iff_exists.mp (soundPurged uuid session calledPurged).2
          rw [perform_deleteUser called, perform_deleteUser calledPurged, table, tablePurged]
          by_cases other : u.ID ≠ session.user.ID
          · simp only [deleteAnswer, if_pos other]
            exact ⟨trivial, by simpa [table, tablePurged] using rows, fun _ same => same⟩
          · have target : account u.ID = A := by
              rw [not_not.mp other, own session called]
            simp only [deleteAnswer, if_neg other, World.setUsers_users, World.setUsers_servants,
              Users.rowsOf_delete, target, ↓reduceIte]
            exact ⟨trivial, trivial, fun _ same => same⟩
      | _ => exact absurd ⟨by simp, by simp⟩ stub

/-! ## The relation along the run -/

theorem unexposed_step {w : World} {op : Operation} {uuid : StdString} (free : w.servants uuid = none)
    (other : op.exposes ≠ some uuid) : (perform op w).2.servants uuid = none := by
  rcases servants_step op w uuid with same | ⟨_, _, _, _, _, rfl, _⟩ | ⟨_, _, called, _⟩
  · rw [same, free]
  · exact absurd rfl other
  · rw [free] at called
    contradiction

omit [Storage] in
theorem exposes_fresh (fresh : ((op :: rest).filterMap Operation.exposes).Nodup) {uuid : StdString}
    (later : uuid ∈ rest.filterMap Operation.exposes) :
    uuid ∈ (op :: rest).filterMap Operation.exposes ∧ op.exposes ≠ some uuid := by
  cases exposed : op.exposes with
  | none =>
      rw [List.filterMap_cons_none exposed]
      exact ⟨later, by simp⟩
  | some first =>
      rw [List.filterMap_cons_some exposed] at fresh ⊢
      refine ⟨List.mem_cons_of_mem _ later, fun same => ?_⟩
      cases same
      exact (List.nodup_cons.mp fresh).1 later

omit [Storage] in
theorem fresh_tail (fresh : ((op :: rest).filterMap Operation.exposes).Nodup) :
    (rest.filterMap Operation.exposes).Nodup :=
  fresh.sublist ((List.sublist_cons_self op rest).filterMap _)

theorem Related.user (now : Related A issued rest w purged) {uuid : StdString} {session : SessionImpl}
    (called : w.servants uuid = some session) :
    ∃ later, issued.servants uuid = some later ∧ later.user = session.user := by
  rw [← now.toCome]
  exact session_user called rest

theorem Related.keep (now : Related A issued (op :: rest) w purged) (mine : concerns account A issued op = true) :
    accountView A (moment perform w op) = accountView A (moment perform purged op) ∧
    Related A issued rest (perform op w).2 (perform op purged).2 := by
  have alike : Alike A op w purged := by
    cases op with
    | registerUser u pw => exact alike_registerUser now.rows (by simpa [concerns] using mine) pw
    | login u pw callbackID con uuid =>
        obtain ⟨free, freePurged⟩ := now.free uuid (by simp [Operation.exposes])
        exact alike_login now.rows (by simpa [concerns] using mine) pw callbackID con free freePurged
    | invoke uuid m =>
        have own : ∀ session, issued.servants uuid = some session → account session.user.ID = A := by
          intro session found
          simpa [concerns, found] using mine
        refine alike_invoke now.rows now.sound now.soundPurged (now.sessions uuid own) ?_ m
        -- a session keeps its user, so the key it has at the end of the run is the key it has now
        intro session called
        obtain ⟨later, found, same⟩ := now.user called
        rw [← same]
        exact own later found
  obtain ⟨output, rows, sessions⟩ := alike
  refine ⟨by simp [accountView, moment, now.rows, output, rows], now.toCome, fresh_tail now.fresh, ?_,
    sessionsSound_step now.sound op, sessionsSound_step now.soundPurged op, rows,
    fun uuid own => sessions uuid (now.sessions uuid own)⟩
  intro uuid later
  obtain ⟨listed, other⟩ := exposes_fresh now.fresh later
  obtain ⟨free, freePurged⟩ := now.free uuid listed
  exact ⟨unexposed_step free other, unexposed_step freePurged other⟩

theorem Related.foreign_rows (now : Related A issued (op :: rest) w purged)
    (foreign : concerns account A issued op = false) : (perform op w).2.users.rowsOf A = w.users.rowsOf A := by
  rcases rows_step op w A with ⟨u, pw, ⟨rfl, own, _⟩, _⟩ | ⟨⟨uuid, u, called, own, value, returned⟩, _⟩ |
      ⟨_, _, same⟩
  · simp [concerns, own] at foreign
  · cases called
    obtain ⟨session, called, same⟩ := deletion_own returned
    obtain ⟨later, found, user⟩ := now.user called
    have mine : account session.user.ID = A := by
      rw [← own, same]
    simp [concerns, found, user, mine] at foreign
  · exact same

theorem Related.foreign_session (now : Related A issued (op :: rest) w purged)
    (foreign : concerns account A issued op = false) {uuid : StdString}
    (mine : ∀ session, issued.servants uuid = some session → account session.user.ID = A) :
    (perform op w).2.servants uuid = w.servants uuid := by
  rcases servants_step op w uuid with same | ⟨u, pw, callbackID, con, stored, rfl, _, _, issued'⟩ |
      ⟨session, rfl, called, _⟩
  · exact same
  · obtain ⟨later, found, user⟩ := session_user issued' rest
    have own := mine later (by rw [← now.toCome]; exact found)
    rw [user] at own
    exact absurd own (by simpa [concerns] using foreign)
  · obtain ⟨later, found, _⟩ := now.user called
    simp [concerns, found, mine later found] at foreign

theorem Related.purge (now : Related A issued (op :: rest) w purged)
    (foreign : concerns account A issued op = false) :
    Related A issued rest (perform op w).2 purged := by
  refine ⟨now.toCome, fresh_tail now.fresh, ?_, sessionsSound_step now.sound op, now.soundPurged,
    (now.foreign_rows foreign).trans now.rows,
    fun uuid mine => (now.foreign_session foreign mine).trans (now.sessions uuid mine)⟩
  intro uuid later
  obtain ⟨listed, other⟩ := exposes_fresh now.fresh later
  obtain ⟨free, freePurged⟩ := now.free uuid listed
  exact ⟨unexposed_step free other, freePurged⟩

end

theorem related_start (A : StdString) (run : Run) : Related A (world run.ops) run.ops .empty .empty where
  toCome := rfl
  fresh := run.fresh
  free _ _ := ⟨rfl, rfl⟩
  sound := sessionsSound []
  soundPurged := sessionsSound []
  rows := rfl
  sessions _ _ := rfl

theorem account_isolated (run : Run) (A : StdString) : Isolated account run A :=
  purge_rule perform (concerns account A (world run.ops)) (accountView A) (Related A (world run.ops))
    (fun _ _ _ _ now mine => now.keep mine) (fun _ _ _ _ now foreign => now.purge foreign) run.ops
    (related_start A run)

end

/-- IDs that differ only after a 0 byte have one row. -/
theorem ids_not_isolated : ¬ ∀ (run : Run) (A : StdString), Isolated key run A := by
  intro claim
  have same := claim ⟨[.registerUser ⟨lit "bob" ++ 0 :: lit "x", []⟩ (lit "pw"),
    .registerUser ⟨lit "bob", []⟩ (lit "pw")], by decide⟩ (lit "bob")
  revert same
  unfold Isolated
  decide

end SecureChat
