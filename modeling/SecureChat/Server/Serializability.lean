import SecureChat.Library.Refinement
import SecureChat.Server.Sessions
import SecureChat.Server.Uniqueness

/-!
# Schedules that could have been served one call at a time

The calls of a schedule return in some order. If the server had served them in that order, each
alone, it would have returned the same results and kept the same accounts and sessions, provided
that every `INSERT` still finds what the `SELECT` of its call saw. Only registrations are at risk:
the other calls take effect with a single statement.
-/

namespace SecureChat
open Library Body

def Event.completed (e : Event) : Option (Operation × Result) :=
  e.returned.map (e.call, ·)

/-- The calls that have returned, in the order in which they did, with their results. -/
def completed (events : List Event) : List (Operation × Result) :=
  events.filterMap Event.completed

def commit (output : Option Event) : Option (Operation × Result) :=
  output.bind Event.completed

section
variable [Storage]

structure Serialized (actions : List Action) : Prop where
  results : Legal perform .empty (completed (trace actions))
  rows : (pool actions).world.users.rows =
    (world ((completed (trace actions)).map Prod.fst)).users.rows
  servants : (pool actions).world.servants =
    (world ((completed (trace actions)).map Prod.fst)).servants

end

/-! ## Worlds that calls cannot tell apart -/

/-- The worlds differ at most in an empty table that only the first one has created. -/
structure World.Alike (w t : World) : Prop where
  rows : w.users.rows = t.users.rows
  servants : w.servants = t.servants
  table : t.users.isSome → w.users.isSome

namespace World.Alike
variable {w t : World}

theorem find (alike : w.Alike t) (k : StdString) : w.users.find k = t.users.find k := by
  unfold Users.find
  rw [alike.rows]

theorem opened (alike : w.Alike t) : w.opened.Alike t :=
  ⟨alike.rows, alike.servants, fun _ => rfl⟩

theorem opened_opened (alike : w.Alike t) : w.opened.Alike t.opened :=
  ⟨alike.rows, alike.servants, fun _ => rfl⟩

theorem setServant (alike : w.Alike t) (uuid : StdString) (session : Option SessionImpl) :
    (w.setServant uuid session).Alike (t.setServant uuid session) :=
  ⟨alike.rows, by simp [World.setServant, alike.servants], alike.table⟩

theorem setRows (alike : w.Alike t) (rows : List Row) :
    (w.setUsers (some rows)).Alike (t.setUsers (some rows)) :=
  ⟨rfl, alike.servants, fun _ => rfl⟩

theorem perform [Storage] (alike : w.Alike t) (sound : SessionsSound t) (op : Operation) :
    (SecureChat.perform op w).1 = (SecureChat.perform op t).1 ∧
      (SecureChat.perform op w).2.Alike (SecureChat.perform op t).2 := by
  cases op with
  | registerUser u pw =>
      rw [perform_registerUser, perform_registerUser, alike.find, alike.rows]
      cases t.users.find (account u.ID) with
      | none => exact ⟨rfl, alike.setRows _⟩
      | some row => exact ⟨rfl, alike.opened_opened⟩
  | login u pw callbackID con uuid =>
      rw [perform_login, perform_login, Users.fetch, alike.find, ← Users.fetch, alike.servants]
      cases loginCheck u pw callbackID con (t.users.fetch (key u.ID)) (t.servants uuid).isSome with
      | error e => exact ⟨rfl, alike.opened_opened⟩
      | ok stored => exact ⟨rfl, alike.opened_opened.setServant _ _⟩
  | invoke uuid m =>
      cases called : t.servants uuid with
      | none =>
          rw [perform_invoke_absent uuid m t called,
            perform_invoke_absent uuid m w (by rw [alike.servants, called])]
          exact ⟨rfl, alike⟩
      | some session =>
          have calledToo : w.servants uuid = some session := by rw [alike.servants, called]
          by_cases stub : m.IsStub
          · obtain ⟨value, answers⟩ := perform_stub stub
            rw [answers uuid session t called, answers uuid session w calledToo]
            exact ⟨rfl, alike⟩
          cases m with
          | logout =>
              rw [perform_logout called, perform_logout calledToo]
              exact ⟨rfl, alike.setServant _ _⟩
          | deleteUser u =>
              -- a session exists only once a table does, so neither call finds the table missing
              obtain ⟨rows, table⟩ := Option.isSome_iff_exists.mp (sound uuid session called).2
              obtain ⟨rows', table'⟩ := Option.isSome_iff_exists.mp (alike.table (by simp [table]))
              have same : rows' = rows := by simpa [table, table', Users.rows] using alike.rows
              rw [perform_deleteUser called, perform_deleteUser calledToo, table, table', same]
              refine ⟨rfl, ?_⟩
              unfold deleteAnswer
              split
              · exact alike.setRows rows
              · exact alike.setRows _
          | _ => exact absurd ⟨by simp, by simp⟩ stub

end World.Alike

/-! ## The last statement of a call -/

/-- The rest of `login` after its `SELECT`, which executes no statement. -/
def verifyRest (u : User) (pw : StdString) (callbackID : Identity) (found : Option Row) : Body StdString := do
  match found with
  | none => throw (AuthenticationException (lit "unknown ID"))
  | some stored =>
      if pw ≠ stored.pw then
        throw (AuthenticationException (lit "invalid password"))
      if u.publicKey.toStdString ≠ [] ∧ u.publicKey.toStdString ≠ stored.pubkey then
        throw (AuthenticationException (lit "public key can't change"))
      callbackForID callbackID
      if (← echo callbackID (lit "42")) ≠ lit "42" then
        throw (AuthenticationException (lit "echo not working"))
      info [lit "Logging in ", u.ID]
      exposeObject ⟨true, ⟨key u.ID, StdString.toByteSeq stored.pubkey⟩⟩

def lookupRest (u : User) (pw : StdString) (callbackID : Identity) : Body StdString := do
  verifyRest u pw callbackID (← selectUser (key u.ID))

def proxied (b : Body StdString) : Program Request Request.Reply Result :=
  (do return Value.proxy (← b) : Body Value).run

theorem deleteUser_own {session : SessionImpl} {u : User} (own : u.ID = session.user.ID) :
    session.deleteUser u = (do
      tryCatch (deleteUsers (key u.ID)) fun
        | .soci _ => throw (UserHandlingException (lit "unknown ID"))
        | e => throw e
      info [session.user.ID, lit " deleted account of ", u.ID]) :=
  (deleteUser_eq session u).trans (if_neg (not_not.mpr own))

theorem deleteUser_other {session : SessionImpl} {u : User} (other : u.ID ≠ session.user.ID) :
    session.deleteUser u = throw (UserHandlingException (lit "deleting other users is not permitted")) :=
  (deleteUser_eq session u).trans (if_pos other)

section
variable {bad : Request → Prop}

private theorem spares_answered {ε α : Type} {r : Request} (good : ¬ bad r) (wrap : ε → Fault)
    (read : r.Reply → Except ε α) : Program.Spares bad (do orThrow wrap (read (← ask r))) := by
  refine Program.spares_bind (Program.spares_ask good) fun reply => ?_
  cases read reply with
  | ok value => exact Program.spares_pure value
  | error e => exact Program.spares_throw (wrap e)

theorem spares_registerUser (executes : ∀ s, ¬ bad (.sql s)) (logs : ∀ args, ¬ bad (.info args)) (u : User)
    (pw : StdString) : Program.Spares bad (AuthenticationImpl.registerUser u pw) := by
  have sql (s : Statement) : Program.Spares bad (sql s) :=
    spares_answered (executes s) .soci fun answer => answer
  refine Program.spares_bind (sql _) fun _ => Program.spares_bind (sql _) fun found => ?_
  dsimp only
  split
  · exact Program.spares_throw _
  · exact Program.spares_bind (sql _) fun _ => Program.spares_ask (logs _)

theorem spares_verifyRest (calls : ∀ callbackID, ¬ bad (.callbackForID callbackID))
    (echoes : ∀ callbackID text, ¬ bad (.echo callbackID text)) (logs : ∀ args, ¬ bad (.info args))
    (exposes : ∀ session, ¬ bad (.exposeObject session)) (u : User) (pw : StdString) (callbackID : Identity)
    (found : Option Row) : Program.Spares bad (verifyRest u pw callbackID found) := by
  cases found with
  | none => exact Program.spares_throw _
  | some stored =>
      dsimp only [verifyRest]
      split
      · exact Program.spares_throw _
      split
      · exact Program.spares_throw _
      refine Program.spares_bind (spares_answered (calls _) (fun e => e) fun answer => answer) fun _ => ?_
      refine Program.spares_bind (spares_answered (echoes _ _) (fun e => e) fun answer => answer) fun answer => ?_
      split
      · exact Program.spares_throw _
      exact Program.spares_bind (Program.spares_ask (logs _)) fun _ =>
        spares_answered (exposes _) (fun e => e) fun answer => answer

theorem spares_stub (logs : ∀ args, ¬ bad (.info args)) (session : SessionImpl) {m : SessionMethod}
    (stub : m.IsStub) : Program.Spares bad (session.invoke m) := by
  have line {α : Type} (args : List StdString) (value : α) :
      Program.Spares bad (do Body.info args; return value) :=
    Program.spares_bind (Program.spares_ask (logs args)) fun _ => Program.spares_pure value
  cases m with
  | logout => exact absurd rfl stub.1
  | deleteUser u => exact absurd rfl (stub.2 u)
  | retrieveUser userID => exact Program.spares_pure _
  | initChat | retrieveLoglist | retrieveLog _ _ | retrieveContactList =>
      exact Program.spares_bind (line _ _) fun _ => Program.spares_pure _
  | _ => exact line _ _

theorem spares_logout (logs : ∀ args, ¬ bad (.info args)) (sets : ∀ value, ¬ bad (.setLoggedIn value))
    (session : SessionImpl) : Program.Spares bad (session.invoke .logout) := by
  refine Program.spares_bind (Program.spares_bind (Program.spares_ask (logs _)) fun _ => ?_)
    fun _ => Program.spares_pure _
  exact Program.spares_ask (sets false)

theorem spares_deleteUser (logs : ∀ args, ¬ bad (.info args)) (deletes : ∀ id, ¬ bad (.sql (.delete id)))
    (session : SessionImpl) (u : User) : Program.Spares bad (session.invoke (.deleteUser u)) := by
  refine Program.spares_bind ?_ fun _ => Program.spares_pure _
  by_cases own : u.ID = session.user.ID
  · rw [deleteUser_own own]
    refine Program.spares_bind (Program.spares_tryCatch ?_ fun e => ?_) fun _ => Program.spares_ask (logs _)
    · exact spares_answered (deletes _) .soci fun answer => answer
    · cases e <;> exact Program.spares_throw _
  · rw [deleteUser_other own]
    exact Program.spares_throw _

theorem spares_method (logs : ∀ args, ¬ bad (.info args)) (sets : ∀ value, ¬ bad (.setLoggedIn value))
    (deletes : ∀ id, ¬ bad (.sql (.delete id))) (session : SessionImpl) (m : SessionMethod) :
    Program.Spares bad (session.invoke m) := by
  by_cases stub : m.IsStub
  · exact spares_stub logs session stub
  cases m with
  | logout => exact spares_logout logs sets session
  | deleteUser u => exact spares_deleteUser logs deletes session u
  | _ => exact absurd ⟨by simp, by simp⟩ stub

end

section
variable [Storage]

theorem advance_checking (u : User) (pw : StdString) (callbackID : Identity) (con : Connection)
    (uuid : StdString) {w : World} {rows : List Row} (table : w.users = some rows) :
    (proxied (lookupRest u pw callbackID)).advance (Operation.login u pw callbackID con uuid).answer
      Request.isStatement w = (.done (perform (.login u pw callbackID con uuid) w).1,
        (perform (.login u pw callbackID con uuid) w).2) := by
  rcases w with ⟨users, servants⟩
  subst table
  refine Program.settle_of_avoids _ (p := proxied (verifyRest u pw callbackID (Users.fetch (some rows) (key u.ID))))
    ?_ _
  exact Program.spares_bind (spares_verifyRest (by simp [Request.statement]) (by simp [Request.statement])
    (by simp [Request.statement]) (by simp [Request.statement]) ..) fun _ => Program.spares_pure _

theorem advance_deleting {session : SessionImpl} {u : User} {uuid : StdString} {w : World}
    {now : SessionImpl} (called : w.servants uuid = some now) (same : now.user = session.user)
    (own : u.ID = session.user.ID) :
    (finish (session.deleteUser u)).advance (Operation.invoke uuid (.deleteUser u)).answer
      Request.isStatement w = (.done (perform (.invoke uuid (.deleteUser u)) w).1,
        (perform (.invoke uuid (.deleteUser u)) w).2) := by
  rw [perform_deleteUser called, deleteUser_own own, same]
  unfold deleteAnswer
  rw [if_neg (not_not.mpr own)]
  rcases w with ⟨_ | rows, servants⟩ <;> rfl

omit [Storage] in
theorem opened_of_table {w : World} (table : w.users.isSome) : w.opened = w := by
  obtain ⟨rows, stored⟩ := Option.isSome_iff_exists.mp table
  rcases w with ⟨users, servants⟩
  subst stored
  rfl

/-! ## The phases of every call -/

inductive Stage (w : World) : Thread → Prop
  | registering (u : User) (pw : StdString) :
      Stage w ⟨.registerUser u pw, finish (AuthenticationImpl.registerUser u pw)⟩
  | selecting (u : User) (pw : StdString) (table : w.users.isSome) :
      Stage w ⟨.registerUser u pw, finish (selectRest u pw)⟩
  | inserting (u : User) (pw : StdString) (table : w.users.isSome) :
      Stage w ⟨.registerUser u pw, finish (insertRest u pw)⟩
  | loggingIn (u : User) (pw : StdString) (callbackID : Identity) (con : Connection) (uuid : StdString) :
      Stage w ⟨.login u pw callbackID con uuid, proxied (AuthenticationImpl.login u pw callbackID)⟩
  | checking (u : User) (pw : StdString) (callbackID : Identity) (con : Connection) (uuid : StdString)
      (table : w.users.isSome) :
      Stage w ⟨.login u pw callbackID con uuid, proxied (lookupRest u pw callbackID)⟩
  | deleting (uuid : StdString) (u : User) (session : SessionImpl) (own : u.ID = session.user.ID)
      (called : ∃ now, w.servants uuid = some now ∧ now.user = session.user) :
      Stage w ⟨.invoke uuid (.deleteUser u), finish (session.deleteUser u)⟩
  | returned (call : Operation) (result : Result) : Stage w ⟨call, .done result⟩

/-- What no call takes back: the table is there and sessions stay with their users. -/
structure World.Later (w after : World) : Prop where
  table : w.users.isSome → after.users.isSome
  sessions : ∀ uuid session, w.servants uuid = some session →
    ∃ now, after.servants uuid = some now ∧ now.user = session.user

theorem later_perform (op : Operation) (w : World) : w.Later (perform op w).2 :=
  ⟨fun table => users_isSome_step table op, fun _ _ issued => session_user_step issued op⟩

omit [Storage] in
theorem Stage.later {w after : World} (later : w.Later after) {t : Thread} (phase : Stage w t) :
    Stage after t := by
  cases phase with
  | registering u pw => exact .registering u pw
  | selecting u pw table => exact .selecting u pw (later.table table)
  | inserting u pw table => exact .inserting u pw (later.table table)
  | loggingIn u pw callbackID con uuid => exact .loggingIn u pw callbackID con uuid
  | checking u pw callbackID con uuid table => exact .checking u pw callbackID con uuid (later.table table)
  | deleting uuid u session own called =>
      obtain ⟨now, issued, same⟩ := called
      obtain ⟨after, found, kept⟩ := later.sessions uuid now issued
      exact .deleting uuid u session own ⟨after, found, kept.trans same⟩
  | returned call result => exact .returned call result

/-! ## What a step serves -/

/-- A step leaves its call pending, completes it as `perform` would, or registers a taken name. -/
inductive Served (now : ThreadPool) (e : Event) (after : World) : Prop
  | pending (returned : e.returned = none) (quiet : ∀ row, e.statement ≠ some (.insert row))
      (rows : after.users.rows = now.world.users.rows) (servants : after.servants = now.world.servants)
      (table : now.world.users.isSome → after.users.isSome)
  | completed (returned : e.returned = some (perform e.call now.world).1)
      (same : after = (perform e.call now.world).2)
      (vacant : ∀ row, e.statement = some (.insert row) →
        now.world.users.rowsOf (asText row.id) = [])
  | overrun (u : User) (pw : StdString) (row : Row) (call : e.call = .registerUser u pw)
      (inserted : e.statement = some (.insert row)) (name : row.id = key u.ID)
      (returned : e.returned = some (.ok .void)) (taken : now.world.users.rowsOf (asText row.id) ≠ [])

def Serves (now : ThreadPool) (a : Action) : Prop :=
  ∃ e, (ThreadPool.act a now).1 = some e ∧ Served now e (ThreadPool.act a now).2.world ∧
    ∀ t ∈ (ThreadPool.act a now).2.threads, t ∈ now.threads ∨ Stage (ThreadPool.act a now).2.world t

section
variable {now : ThreadPool}

theorem dispatch_pending {op : Operation} {rest : Program Request Request.Reply Result}
    (started : (op.body now.world).run.settle op.answer Request.isStatement now.world = (rest, now.world))
    (waiting : rest.value? = none) (phase : Stage now.world ⟨op, rest⟩) : Serves now (.dispatch op) := by
  rw [Serves, ThreadPool.act, started]
  refine ⟨_, rfl, .pending waiting (by simp) rfl rfl id, fun t member => ?_⟩
  rcases List.mem_append.mp member with earlier | new
  · exact .inl earlier
  · exact .inr (List.mem_singleton.mp new ▸ phase)

theorem dispatch_completed {op : Operation} {result : Result} {after : World}
    (started : (op.body now.world).run.settle op.answer Request.isStatement now.world = (.done result, after)) :
    Serves now (.dispatch op) := by
  have ended := Program.run_settle op.answer Request.isStatement (op.body now.world).run now.world
  rw [started] at ended
  have performed : perform op now.world = (result, after) := ended.symm
  rw [Serves, ThreadPool.act, started]
  refine ⟨_, rfl, .completed ?_ ?_ (by simp), fun t member => ?_⟩
  · rw [performed]
    rfl
  · rw [performed]
  · rcases List.mem_append.mp member with earlier | new
    · exact .inl earlier
    · rw [List.mem_singleton.mp new]
      exact .inr (.returned op result)

theorem dispatch_serves (op : Operation) : Serves now (.dispatch op) := by
  cases op with
  | registerUser u pw => exact dispatch_pending rfl rfl (.registering u pw)
  | login u pw callbackID con uuid =>
      exact dispatch_pending rfl rfl (.loggingIn u pw callbackID con uuid)
  | invoke uuid m =>
      have settled (b : Body Value) (body : (Operation.invoke uuid m).body now.world = b) :
          ((Operation.invoke uuid m).body now.world).run.settle (Operation.invoke uuid m).answer
            Request.isStatement now.world =
          b.run.settle (Operation.invoke uuid m).answer Request.isStatement now.world := by
        rw [body]
      cases called : now.world.servants uuid with
      | none =>
          exact dispatch_completed (settled (throw (.ice .objectNotExist)) (by
            simp only [Operation.body, called]))
      | some session =>
          have body : (Operation.invoke uuid m).body now.world = session.invoke m := by
            simp only [Operation.body, called]
          by_cases deletes : ∃ u, m = .deleteUser u
          · obtain ⟨u, rfl⟩ := deletes
            by_cases own : u.ID = session.user.ID
            · refine dispatch_pending ((settled _ body).trans ?_) ?_
                (.deleting uuid u session own ⟨session, called, rfl⟩)
              · rw [SessionImpl.invoke, deleteUser_own own]
                rfl
              · rw [deleteUser_own own]
                rfl
            · have throws : session.invoke (.deleteUser u) =
                  throw (UserHandlingException (lit "deleting other users is not permitted")) := by
                rw [SessionImpl.invoke, deleteUser_other own]
                rfl
              exact dispatch_completed (settled _ (body.trans throws))
          · have quiet : Program.Spares (fun r : Request => r.isStatement = true) (session.invoke m) := by
              by_cases out : m = .logout
              · subst out
                exact spares_logout (by simp [Request.statement]) (by simp [Request.statement]) session
              · exact spares_stub (by simp [Request.statement]) session ⟨out, fun u same => deletes ⟨u, same⟩⟩
            exact dispatch_completed ((settled _ body).trans (Program.settle_of_avoids _ quiet _))

section
variable {i : Nat} {call : Operation} {rest : Program Request Request.Reply Result} {r : Request}
  {next : r.Reply → Program Request Request.Reply Result}

theorem advance_acts {rest' : Program Request Request.Reply Result} {w : World}
    (found : now.threads[i]? = some ⟨call, rest⟩) (shape : rest = .request r next)
    (moved : rest.advance call.answer Request.isStatement now.world = (rest', w)) :
    ThreadPool.act (.advance i) now =
      (some ⟨i, call, r.statement, rest'.value?⟩, ⟨w, now.threads.set i ⟨call, rest'⟩⟩) := by
  subst shape
  simp only [ThreadPool.act, found, moved]

theorem advance_pending {rest' : Program Request Request.Reply Result} {w : World}
    (found : now.threads[i]? = some ⟨call, rest⟩) (shape : rest = .request r next)
    (moved : rest.advance call.answer Request.isStatement now.world = (rest', w))
    (waiting : rest'.value? = none) (quiet : ∀ row, r.statement ≠ some (.insert row))
    (rows : w.users.rows = now.world.users.rows) (servants : w.servants = now.world.servants)
    (table : w.users.isSome) (phase : Stage w ⟨call, rest'⟩) : Serves now (.advance i) := by
  rw [Serves, advance_acts found shape moved]
  refine ⟨_, rfl, .pending waiting quiet rows servants fun _ => table, fun t member => ?_⟩
  rcases List.mem_or_eq_of_mem_set member with earlier | rfl
  · exact .inl earlier
  · exact .inr phase

theorem advance_completed (found : now.threads[i]? = some ⟨call, rest⟩) (shape : rest = .request r next)
    (moved : rest.advance call.answer Request.isStatement now.world =
      (.done (perform call now.world).1, (perform call now.world).2))
    (vacant : ∀ row, r.statement = some (.insert row) →
        now.world.users.rowsOf (asText row.id) = []) :
    Serves now (.advance i) := by
  rw [Serves, advance_acts found shape moved]
  refine ⟨_, rfl, .completed rfl rfl vacant, fun t member => ?_⟩
  rcases List.mem_or_eq_of_mem_set member with earlier | rfl
  · exact .inl earlier
  · exact .inr (.returned _ _)

end

theorem advance_serves {i : Nat} {t : Thread} (found : now.threads[i]? = some t) (phase : Stage now.world t) :
    (ThreadPool.act (.advance i) now = (none, now)) ∨ Serves now (.advance i) := by
  cases phase with
  | registering u pw =>
      exact .inr (advance_pending found rfl (advance_creating u pw now.world) rfl (by simp [Request.statement])
        rfl rfl rfl (.selecting u pw rfl))
  | selecting u pw table =>
      obtain ⟨rows, stored⟩ := Option.isSome_iff_exists.mp table
      have moved := advance_selecting u pw now.world stored
      cases looked : now.world.users.find (account u.ID) with
      | none =>
          rw [looked] at moved
          exact .inr (advance_pending found rfl moved rfl (by simp [Request.statement]) rfl rfl table
            (.inserting u pw table))
      | some row =>
          rw [looked] at moved
          refine .inr (advance_completed found rfl (moved.trans ?_) (by simp [Request.statement]))
          rw [perform_registerUser, looked, opened_of_table table]
  | inserting u pw table =>
      obtain ⟨rows, stored⟩ := Option.isSome_iff_exists.mp table
      have moved := advance_inserting u pw now.world stored
      by_cases vacant : now.world.users.rowsOf (account u.ID) = []
      · have performed := perform_registerUser u pw now.world
        rw [Users.find_eq_none.mpr vacant, stored] at performed
        refine .inr (advance_completed found rfl (moved.trans ?_) ?_)
        · rw [performed]
          rfl
        · rintro row ⟨⟩
          exact vacant
      · refine .inr ?_
        rw [Serves, advance_acts found rfl moved]
        refine ⟨_, rfl, .overrun u pw _ rfl rfl rfl rfl vacant, fun t member => ?_⟩
        rcases List.mem_or_eq_of_mem_set member with earlier | rfl
        · exact .inl earlier
        · exact .inr (.returned _ _)
  | loggingIn u pw callbackID con uuid =>
      exact .inr (advance_pending found rfl rfl rfl (by simp [Request.statement]) rfl rfl rfl
        (.checking u pw callbackID con uuid rfl))
  | checking u pw callbackID con uuid table =>
      obtain ⟨rows, stored⟩ := Option.isSome_iff_exists.mp table
      exact .inr (advance_completed found rfl (advance_checking u pw callbackID con uuid stored)
        (by simp [Request.statement]))
  | deleting uuid u session own called =>
      obtain ⟨current, issued, same⟩ := called
      have moved := advance_deleting issued same own
      rw [deleteUser_own own] at found moved
      exact .inr (advance_completed found rfl moved (by simp [Request.statement]))
  | returned call result => exact .inl (by simp [ThreadPool.act, found])

end

/-! ## The schedule and its serial run -/

structure Tracks (now : ThreadPool) (t : World) : Prop where
  alike : now.world.Alike t
  sound : SessionsSound t
  phases : ∀ thread ∈ now.threads, Stage now.world thread

def InsertsVacant (m : Moment ThreadPool Action (Option Event)) : Prop :=
  ∀ e row, m.output = some e → e.statement = some (.insert row) →
    m.before.world.users.rowsOf (asText row.id) = []

theorem insertsVacant_of_output {now : ThreadPool} {a : Action} {e : Event}
    (output : (ThreadPool.act a now).1 = some e) : InsertsVacant (moment ThreadPool.act now a) ↔
      ∀ row, e.statement = some (.insert row) → now.world.users.rowsOf (asText row.id) = [] := by
  unfold InsertsVacant moment
  rw [output]
  constructor
  · exact fun vacant row inserted => vacant e row rfl inserted
  · rintro vacant e' row ⟨⟩ inserted
    exact vacant row inserted

section
variable {now : ThreadPool} {t : World}

theorem Tracks.serves (tracks : Tracks now t) (a : Action) :
    ThreadPool.act a now = (none, now) ∨ Serves now a := by
  cases a with
  | dispatch op => exact .inr (dispatch_serves op)
  | advance i =>
      cases found : now.threads[i]? with
      | none => exact .inl (by simp [ThreadPool.act, found])
      | some thread => exact advance_serves found (tracks.phases thread (List.mem_of_getElem? found))

omit [Storage] in
theorem Tracks.phases_after (tracks : Tracks now t) {after : ThreadPool}
    (later : now.world.Later after.world)
    (moved : ∀ thread ∈ after.threads, thread ∈ now.threads ∨ Stage after.world thread) :
    ∀ thread ∈ after.threads, Stage after.world thread := by
  intro thread member
  rcases moved thread member with earlier | phase
  · exact (tracks.phases thread earlier).later later
  · exact phase

theorem Tracks.silent (tracks : Tracks now t) (a : Action)
    (uncommitted : commit (ThreadPool.act a now).1 = none) :
    InsertsVacant (moment ThreadPool.act now a) ∧ Tracks (ThreadPool.act a now).2 t := by
  rcases tracks.serves a with nothing | ⟨e, output, served, moved⟩
  · rw [moment, nothing]
    exact ⟨by simp [InsertsVacant], tracks⟩
  · rw [output] at uncommitted
    cases served with
    | pending returned quiet rows servants table =>
        constructor
        · rintro e' row same inserted
          rw [moment, output, Option.some.injEq] at same
          exact absurd (same ▸ inserted) (quiet row)
        · have alike : (ThreadPool.act a now).2.world.Alike t :=
            ⟨rows.trans tracks.alike.rows, servants.trans tracks.alike.servants,
              fun created => table (tracks.alike.table created)⟩
          refine ⟨alike, tracks.sound, tracks.phases_after ⟨table, ?_⟩ moved⟩
          intro uuid session issued
          exact ⟨session, by rw [servants, issued], rfl⟩
    | completed returned same vacant => simp [commit, Event.completed, returned] at uncommitted
    | overrun u pw row call inserted name returned taken => simp [commit, Event.completed, returned] at uncommitted

theorem Tracks.committed (tracks : Tracks now t) (a : Action) (op : Operation) (result : Result)
    (commits : commit (ThreadPool.act a now).1 = some (op, result)) :
    ((perform op t).1 = result ↔ InsertsVacant (moment ThreadPool.act now a)) ∧
    (InsertsVacant (moment ThreadPool.act now a) → Tracks (ThreadPool.act a now).2 (perform op t).2) := by
  rcases tracks.serves a with nothing | ⟨e, output, served, moved⟩
  · simp [commit, nothing] at commits
  · rw [output] at commits
    rw [insertsVacant_of_output output]
    cases served with
    | pending returned quiet rows servants table => simp [commit, Event.completed, returned] at commits
    | completed returned same vacant =>
        obtain ⟨rfl, rfl⟩ : e.call = op ∧ (perform e.call now.world).1 = result := by
          simpa [commit, Event.completed, returned] using commits
        obtain ⟨result, alike⟩ := tracks.alike.perform tracks.sound e.call
        refine ⟨iff_of_true result.symm vacant, fun _ => ⟨same ▸ alike, ?_, ?_⟩⟩
        · exact sessionsSound_step tracks.sound e.call
        · exact tracks.phases_after (same ▸ later_perform e.call now.world) moved
    | overrun u pw row call inserted name returned taken =>
        obtain ⟨rfl, rfl⟩ : e.call = op ∧ Except.ok Value.void = result := by
          simpa [commit, Event.completed, returned] using commits
        -- the serial run finds the row that was inserted in between and throws
        have present : ∃ found, t.users.find (account u.ID) = some found := by
          refine Option.ne_none_iff_exists'.mp fun absent => taken ?_
          rw [name, ← account, ← Users.find_eq_none, tracks.alike.find, absent]
        obtain ⟨found, present⟩ := present
        have fails : ¬ ∀ row, e.statement = some (.insert row) → now.world.users.rowsOf (asText row.id) = [] :=
          fun vacant => taken (vacant row inserted)
        refine ⟨iff_of_false ?_ fails, fun vacant => absurd vacant fails⟩
        rw [call, perform_registerUser, present]
        simp

end

theorem insertsVacant_iff (actions : List Action) :
    (∀ m ∈ history ThreadPool.act .start actions, InsertsVacant m) ↔ LookupsHold (trace actions) := by
  rw [← uniqueThroughout_iff]
  induction actions using List.reverseRecOn with
  | nil =>
      have initially : (pool []).world.users.UniqueIds := fun _ => Nat.zero_le _
      refine iff_of_true (by simp [history]) ?_
      intro before after split
      rw [(List.append_eq_nil_iff.mp split.symm).1]
      exact initially
  | append_singleton actions a ih =>
      rw [history_concat, forall_mem_concat, ih, uniqueThroughout_concat]
      refine and_congr_right fun unique => ?_
      have now := unique actions [] (by simp)
      rw [pool, final_concat]
      rcases (coherent actions).act a with ⟨silent, same⟩ | ⟨e, output, stepped⟩
      · exact iff_of_true (by simp [InsertsVacant, moment, silent]) (same ▸ now)
      · rw [uniqueIds_step stepped now, insertsVacant_of_output output]

theorem legal_iff (actions : List Action) :
    (Legal perform .empty (completed (trace actions)) ↔ LookupsHold (trace actions)) ∧
    (Legal perform .empty (completed (trace actions)) →
      Tracks (pool actions) (world ((completed (trace actions)).map Prod.fst))) := by
  have commits : commits commit (history ThreadPool.act .start actions) = completed (trace actions) := by
    simp [Library.commits, commit, completed, trace, eventsOf, List.filterMap_filterMap]
  have initially : Tracks .start .empty :=
    ⟨⟨rfl, rfl, id⟩, by simp [SessionsSound, World.empty], by simp [ThreadPool.start]⟩
  obtain ⟨legal, related⟩ := refines_iff ThreadPool.act perform commit Tracks InsertsVacant initially
    (fun _ _ a tracks => tracks.silent a) (fun _ _ a op result tracks => tracks.committed a op result) actions
  rw [commits] at legal related
  exact ⟨legal.trans (insertsVacant_iff actions), related⟩

end
end SecureChat
