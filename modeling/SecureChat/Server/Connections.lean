import SecureChat.Library.Lease
import SecureChat.Server.Interleaving

/-!
# Connections to the database

The pool of `DBPool.cpp` and the servants that lease its connections. A `soci::session` leases a
connection when it is constructed and gives it back at the end of its scope, also when an exception
leaves it: a login keeps its connection while it waits for the client. Ice starts a call only when
one of the threads of the server is free. The callback of a client goes over the connection of the
client itself, so a free thread of the server has to read its answer, too.
-/

namespace SecureChat
open Library Body

/-- The connections of the pool for normal code and of the one for unit tests. -/
def DBPool.ProdPool : Nat := 10
def DBPool.TestPool : Nat := 1

/-- `Ice.ThreadPool.Server.Size` -/
def IceServer.serverThreads : Nat := 3

abbrev PooledBody (α : Type) := ExceptT Fault (LeasedProgram Request Request.Reply) α

namespace PooledBody

/-- `soci::session sql(db_pool->getPool())` and the rest of its scope -/
def session {α : Type} (scope : Body α) : PooledBody α :=
  ExceptT.mk (scope.run.scoped Request.isStatement)

def unpooled {α : Type} (body : Body α) : PooledBody α :=
  ExceptT.mk (body.run.over Request.isStatement none)

end PooledBody
open PooledBody

namespace AuthenticationImpl

def pooledRegisterUser (u : User) (pw : StdString) : PooledBody Unit :=
  session (registerUser u pw)

def pooledLogin (u : User) (pw : StdString) (callbackID : Identity) : PooledBody StdString :=
  session (login u pw callbackID)

end AuthenticationImpl

namespace SessionImpl

def pooledDeleteUser (self : SessionImpl) (u : User) : PooledBody Unit := do
  if u.ID ≠ self.user.ID then
    throw (UserHandlingException (lit "deleting other users is not permitted"))
  let name := if isValidID u.ID then getNameFromID u.ID else u.ID
  session do
    tryCatch (deleteUsers name) fun
      | .soci _ => throw (UserHandlingException (lit "unknown ID"))
      | e => throw e
    info [self.user.ID, lit " deleted account of ", u.ID]

def pooledInvoke (self : SessionImpl) : SessionMethod → PooledBody Value
  | .deleteUser u => do self.pooledDeleteUser u; return .void
  | m => unpooled (self.invoke m)

end SessionImpl

def Operation.pooledBody (op : Operation) (w : World) : LeasedProgram Request Request.Reply Result :=
  ExceptT.run <| match op with
  | .registerUser u pw => do AuthenticationImpl.pooledRegisterUser u pw; return .void
  | .login u pw callbackID _ _ => return .proxy (← AuthenticationImpl.pooledLogin u pw callbackID)
  | .invoke uuid m =>
      match w.servants uuid with
      | none => throw (.ice .objectNotExist)
      | some session => session.pooledInvoke m

abbrev PooledServer := Leases World Request Request.Reply Result Operation

def PooledServer.start (size : Nat) : PooledServer := Leases.start .empty size

/-- The server in surroundings that answer its requests in any way, also with failed statements. -/
abbrev serveIn (answer : Operation → (r : Request) → World → r.Reply × World) (threads : Nat) :
    Leases.Action Operation → PooledServer → Option (Leases.Turn Request Operation) × PooledServer :=
  Leases.act Operation.pooledBody answer threads Request.contacts

abbrev serve [Storage] (threads : Nat) :
    Leases.Action Operation → PooledServer → Option (Leases.Turn Request Operation) × PooledServer :=
  serveIn Operation.answer threads

/-! ## What the servants do between two leases -/

namespace PooledBody
variable {α β : Type}

def Plays (m : PooledBody α) (m' : Body α) : Prop :=
  Library.Plays Request.isStatement none m.run m'.run

theorem plays_pure (value : α) : Plays (pure value) (pure value) := .done _

theorem plays_throw (e : Fault) : Plays (throw e : PooledBody α) (throw e) := .done _

theorem plays_bind {m : PooledBody α} {m' : Body α} {f : α → PooledBody β} {f' : α → Body β}
    (first : Plays m m') (rest : ∀ value, Plays (f value) (f' value)) : Plays (m >>= f) (m' >>= f') := by
  refine Library.Plays.bind first fun ended => ?_
  cases ended with
  | ok value => exact rest value
  | error e => exact .done _

theorem plays_session (scope : Body α) : Plays (session scope) scope :=
  plays_scoped scope.run

theorem plays_unpooled {m : Body α} (spares : Program.Spares (Request.isStatement · = true) m) :
    Plays (unpooled m) m :=
  plays_over spares

theorem plays_deleteUser (session : SessionImpl) (u : User) :
    Plays (session.pooledDeleteUser u) (session.deleteUser u) := by
  by_cases own : u.ID = session.user.ID
  · rw [deleteUser_own own, SessionImpl.pooledDeleteUser]
    simp only [if_neg (not_not.mpr own)]
    exact plays_session _
  · rw [deleteUser_other own, SessionImpl.pooledDeleteUser]
    simp only [if_pos own]
    exact plays_throw _

theorem plays_body (op : Operation) (w : World) :
    Library.Plays Request.isStatement none (op.pooledBody w) (op.body w).run := by
  cases op with
  | registerUser u pw => exact plays_bind (plays_session _) fun _ => plays_pure _
  | login u pw callbackID con uuid => exact plays_bind (plays_session _) fun _ => plays_pure _
  | invoke uuid m =>
      rw [Operation.pooledBody, Operation.body]
      cases w.servants uuid with
      | none => exact plays_throw _
      | some session =>
          have logs (args : List StdString) : ¬ (Request.info args).isStatement = true := by
            simp [Request.isStatement, Request.statement]
          by_cases stub : m.IsStub
          · have quiet := plays_unpooled (spares_stub logs session stub)
            cases m with
            | deleteUser u => exact absurd rfl (stub.2 u)
            | _ => exact quiet
          cases m with
          | logout => exact plays_unpooled (spares_logout logs (by simp [Request.statement]) session)
          | deleteUser u => exact plays_bind (plays_deleteUser session u) fun _ => plays_pure _
          | _ => exact absurd ⟨by simp, by simp⟩ stub

end PooledBody

/-! ## The same interleavings as without a pool -/

/-- The start of a call, or a request that it makes. -/
structure Asked where
  thread : Nat
  call : Operation
  request : Option Request

def Asked.action : Asked → Action
  | ⟨_, call, none⟩ => .dispatch call
  | ⟨thread, _, some _⟩ => .advance thread

def Turn.asked (turn : Turn) : Asked :=
  ⟨turn.thread, turn.call, turn.request⟩

def PooledServer.asked : Leases.Turn Request Operation → Option Asked
  | ⟨thread, call, none⟩ => some ⟨thread, call, none⟩
  | ⟨thread, call, some (.ask _ r)⟩ => some ⟨thread, call, some r⟩
  | ⟨_, _, some .lease⟩ | ⟨_, _, some (.giveBack _)⟩ => none

abbrev PooledHistory :=
  List (Moment PooledServer (Leases.Action Operation) (Option (Leases.Turn Request Operation)))

/-- The starts of calls and their requests, without the connections. -/
def askedIn (h : PooledHistory) : List Asked :=
  h.filterMap fun m => m.output.bind PooledServer.asked

theorem askedIn_concat (h : PooledHistory)
    (m : Moment PooledServer (Leases.Action Operation) (Option (Leases.Turn Request Operation))) :
    askedIn (h ++ [m]) = askedIn h ++ (m.output.bind PooledServer.asked).toList := by
  cases seen : m.output.bind PooledServer.asked <;> simp [askedIn, seen]

/-- The interleaving is what the pooled server does, but for the connections. -/
structure Erases (server : PooledServer) (pool : ThreadPool) : Prop where
  world : server.shared = pool.world
  length : server.threads.length = pool.threads.length
  threads : ∀ (i : Nat) call p, server.threads[i]? = some (call, p) → ∃ held rest,
    pool.threads[i]? = some ⟨call, rest⟩ ∧ Library.Plays Request.isStatement held p rest

section
variable [Storage]

section
variable {server : PooledServer} {pool : ThreadPool}

omit [Storage] in
theorem erases_start (size : Nat) : Erases (.start size) .start :=
  ⟨rfl, rfl, fun i call p there => by simp [PooledServer.start, Leases.start] at there⟩

omit [Storage] in
theorem Erases.update (erases : Erases server pool) {i : Nat} {call : Operation} {held : Option Nat} {w : World}
    (holders : List (Option Nat)) {p : LeasedProgram Request Request.Reply Result} {threads : List Thread}
    {rest : Program Request Request.Reply Result} (length : threads.length = pool.threads.length)
    (there : server.threads[i]? = some (call, p)) (now : threads[i]? = some ⟨call, rest⟩)
    (others : ∀ j, j ≠ i → threads[j]? = pool.threads[j]?) {p' : LeasedProgram Request Request.Reply Result}
    (plays : Library.Plays Request.isStatement held p' rest) :
    Erases ⟨w, holders, server.threads.set i (call, p')⟩ ⟨w, threads⟩ where
  world := rfl
  length := List.length_set.trans (erases.length.trans length.symm)
  threads j call' q found := by
    by_cases here : i = j
    · subst here
      rw [List.getElem?_set_self (List.getElem?_eq_some_iff.mp there).1, Option.some.injEq, Prod.mk.injEq] at found
      obtain ⟨rfl, rfl⟩ := found
      exact ⟨held, rest, now, plays⟩
    · rw [List.getElem?_set_ne here] at found
      rw [others j (Ne.symm here)]
      exact erases.threads j call' q found

theorem Erases.dispatch (erases : Erases server pool) (op : Operation) :
    Erases { server with threads := server.threads ++ [(op, op.pooledBody server.shared)] }
      (ThreadPool.turn (.dispatch op) pool).2 where
  world := erases.world
  length := by simp [ThreadPool.turn, erases.length]
  threads i call p found := by
    have length := erases.length
    rw [List.getElem?_append] at found
    split at found
    · next earlier =>
        obtain ⟨held, rest, there, plays⟩ := erases.threads i call p found
        exact ⟨held, rest, (List.getElem?_append_left (length ▸ earlier)).trans there, plays⟩
    · next late =>
        rw [List.getElem?_singleton] at found
        split at found
        · next last =>
            cases found
            have here : i = pool.threads.length := by omega
            refine ⟨none, _, here ▸ List.getElem?_concat_length, ?_⟩
            rw [← erases.world]
            exact plays_body op _
        · contradiction

/-- A step is the same step without the pool, or none. -/
theorem Erases.step (erases : Erases server pool) {threads : Nat} {output : Option (Leases.Turn Request Operation)}
    {after : PooledServer}
    (acts : Leases.Acts Operation.pooledBody Operation.answer threads Request.contacts server output after) :
    match output.bind PooledServer.asked with
    | none => Erases after pool
    | some asked => (ThreadPool.turn asked.action pool).1.map Turn.asked = some asked ∧
        Erases after (ThreadPool.turn asked.action pool).2 := by
  cases acts with
  | idle => exact erases
  | called c room => exact ⟨by simp [ThreadPool.turn, Asked.action, Turn.asked, erases.length],
      erases.dispatch c⟩
  | leased thread c next resource there free =>
      obtain ⟨held, rest, found, plays⟩ := erases.threads thread c _ there
      cases plays with
      | lease next p plays =>
          exact erases.world ▸ erases.update _ rfl there found (fun _ _ => rfl) (plays resource)
  | asked thread c resource op next there read =>
      obtain ⟨held, rest, found, plays⟩ := erases.threads thread c _ there
      cases plays with
      | ask held op next next' leased plays =>
          have turned := turn_advance found
          simp only [Option.bind_some, PooledServer.asked, Asked.action, turned]
          refine ⟨rfl, ?_⟩
          rw [← erases.world]
          refine erases.update _ List.length_set there (List.getElem?_set_self ?_) (fun j here => ?_) (plays _)
          · exact (List.getElem?_eq_some_iff.mp found).1
          · exact List.getElem?_set_ne (Ne.symm here)
  | gaveBack thread c resource next there =>
      obtain ⟨held, rest, found, plays⟩ := erases.threads thread c _ there
      cases plays with
      | giveBack resource next p plays =>
          exact erases.world ▸ erases.update _ rfl there found (fun _ _ => rfl) plays

end

theorem erases_run (threads size : Nat) (actions : List (Leases.Action Operation)) :
    let asked := askedIn (history (serve threads) (.start size) actions)
    (turns (asked.map Asked.action)).map (fun m => m.output.map Turn.asked) = asked.map some ∧
      Erases (final (serve threads) (.start size) actions) (interleaving (asked.map Asked.action)) := by
  refine history_rule (serve threads) (fun h server =>
    (turns ((askedIn h).map Asked.action)).map (fun m => m.output.map Turn.asked) = (askedIn h).map some ∧
      Erases server (interleaving ((askedIn h).map Asked.action))) ⟨rfl, erases_start size⟩ ?_ actions
  intro past server a earlier
  obtain ⟨same, erases⟩ := earlier
  have step := erases.step (Leases.acts Operation.pooledBody Operation.answer threads Request.contacts a)
  rw [askedIn_concat]
  simp only [moment]
  cases seen : (serve threads a server).1.bind PooledServer.asked with
  | none =>
      rw [seen] at step
      rw [Option.toList_none, List.append_nil]
      exact ⟨same, step⟩
  | some asked =>
      rw [seen] at step
      simp only [Option.toList_some, List.map_append, List.map_singleton, turns_concat, interleaving_concat, same]
      exact ⟨by simp [moment, step.1], step.2⟩

/-- The pool of connections does not change what the server does, as far as statements only fail on a
missing table: all connections see one table, and none fails because of another one. -/
theorem connections_transparent (threads size : Nat) (actions : List (Leases.Action Operation)) :
    let asked := askedIn (history (serve threads) (.start size) actions)
    let server := final (serve threads) (.start size) actions
    let pool := interleaving (asked.map Asked.action)
    (turns (asked.map Asked.action)).map (fun m => m.output.map Turn.asked) = asked.map some ∧
      pool.world = server.shared ∧ pool.threads.map Thread.call = server.threads.map Prod.fst ∧
      ∀ (i : Nat) call result, server.threads[i]? = some (call, .done result) →
        pool.threads[i]? = some ⟨call, .done result⟩ := by
  intro asked server pool
  obtain ⟨same, erases⟩ := erases_run threads size actions
  refine ⟨same, erases.world.symm, List.ext_getElem? fun i => ?_, fun i call result there => ?_⟩
  · rw [List.getElem?_map, List.getElem?_map]
    cases there : server.threads[i]? with
    | none =>
        have absent : pool.threads[i]? = none := by
          rw [List.getElem?_eq_none_iff] at there ⊢
          exact erases.length ▸ there
        rw [absent]
        rfl
    | some t =>
        obtain ⟨held, rest, found, _⟩ := erases.threads i t.1 t.2 there
        rw [found]
        rfl
  · obtain ⟨held, rest, found, plays⟩ := erases.threads i call _ there
    cases plays
    exact found

end

theorem bodies_play (op : Operation) (w : World) :
    ∃ p', Library.Plays Request.isStatement none (op.pooledBody w) p' :=
  ⟨_, plays_body op w⟩

section
variable (answer : Operation → (r : Request) → World → r.Reply × World) (threads size : Nat)
  (actions : List (Leases.Action Operation))

theorem pool_sound : (final (serveIn answer threads) (.start size) actions).Sound threads Request.isStatement size :=
  (Leases.sound_start threads Request.isStatement size _).run bodies_play actions

/-- No two calls use one connection at the same time, and every statement goes over the connection
that its call has leased. A connection is kept by a call that has not returned, and by no call longer. -/
theorem connections_exclusive [Storage] (threads size : Nat) (actions : List (Leases.Action Operation)) :
    let server := final (serve threads) (.start size) actions
    (∀ m ∈ history (serve threads) (.start size) actions, m.before.Proper Request.isStatement m.output) ∧
      server.holders.length = size ∧ server.busy.card ≤ threads ∧
      ∀ connection thread : Nat, server.holders[connection]? = some (some thread) → thread ∈ server.busy ∧
        ∀ other : Nat, server.holders[other]? = some (some thread) → connection = other := by
  intro server
  have sound := pool_sound Operation.answer threads size actions
  refine ⟨?_, sound.size, sound.busy, fun connection thread held =>
    ⟨sound.busy_of_holds held, fun other held' => sound.holds_one held held'⟩⟩
  exact (Leases.sound_start threads Request.isStatement size World.empty).history bodies_play actions

/-! ## Calls come to their ends -/

theorem spares_unissued {op : Operation} (other : op.issued = none) (w : World) :
    Program.Spares (Request.contacts · = true) (op.body w) := by
  cases op with
  | registerUser u pw =>
      refine Program.spares_bind (spares_registerUser ?_ ?_ u pw) fun _ => Program.spares_pure _ <;>
        simp [Request.contacts]
  | login u pw callbackID con uuid => contradiction
  | invoke uuid m =>
      rw [Operation.body]
      cases w.servants uuid with
      | none => exact Program.spares_throw _
      | some session => apply spares_method <;> simp [Request.contacts]

/-- Only logins wait for their client. -/
theorem unissued_quiet :
    (final (serveIn answer threads) (.start size) actions).Quiet Request.contacts (·.issued = none) := by
  refine Leases.Quiet.run (fun thread op p there => by simp [PooledServer.start, Leases.start] at there) ?_ actions
  exact fun op w other => (plays_body op w).avoids (spares_unissued other w)

/-- What comes to its end, from this state on. The replies of a client are read by a thread that
handles no call, so a login waits for one. -/
structure CallsComplete (server : PooledServer) : Prop where
  /-- By the steps of that call alone, if there is a connection for every thread. -/
  alone : threads ≤ size → ∀ (i : Nat) call p, server.threads[i]? = some (call, p) →
    (call.issued = none ∨ server.busy.card < threads) →
      ∃ n, (final (serveIn answer threads) server (List.replicate n (.run i))).Finished i
  /-- All calls, while a thread is free. -/
  free : server.busy.card < threads → server.Finishable Operation.pooledBody answer threads Request.contacts size
  /-- All calls, while a call is handled that is no login. -/
  mixed : threads ≤ size → ∀ i ∈ server.busy, ∀ call p, server.threads[i]? = some (call, p) → call.issued = none →
    server.Finishable Operation.pooledBody answer threads Request.contacts size
  /-- When only logins are handled, all calls, or every thread comes to wait for a client. -/
  logins : threads ≤ size → server.Finishable Operation.pooledBody answer threads Request.contacts size ∨
    ∃ schedule : List Nat, (final (serveIn answer threads) server (schedule.map .run)).Standstill threads Request.contacts
  /-- Then nothing happens any more. -/
  standstill : server.Standstill threads Request.contacts → ∀ later, final (serveIn answer threads) server later = server

/-- Whatever the requests are answered. -/
theorem calls_complete (positive : 0 < size) :
    CallsComplete answer threads size (final (serveIn answer threads) (.start size) actions) := by
  have sound := pool_sound answer threads size actions
  have quiet := unissued_quiet answer threads size actions
  refine ⟨fun enough i call p there read => ?_, sound.all_finish bodies_play positive,
    fun enough i busy call p there other => ?_, sound.finish_or_standstill bodies_play positive,
    fun standstill => standstill.forever⟩
  · obtain ⟨n, finished, _⟩ :=
      sound.finishes answer bodies_play enough there (read.symm.imp_right fun other => quiet i call p there other)
    exact ⟨n, finished⟩
  · exact sound.all_finish_after bodies_play positive enough there busy (quiet i call p there other)

end

/-- Three logins contact their client, each with a connection of its own and on a thread of its own. -/
def waitingLogins : List (Leases.Action Operation) :=
  .call (.registerUser alice (lit "pw")) :: List.replicate 6 (.run 0) ++
    [.call (aliceLogin alice (lit "pw") (lit "s")), .call (aliceLogin alice (lit "pw") (lit "t")),
      .call (aliceLogin alice (lit "pw") (lit "u")), .run 1, .run 2, .run 3, .run 1, .run 2, .run 3,
      .run 3, .run 2, .run 1]

theorem calls_complete_waitingLogins : CallsComplete Operation.answer IceServer.serverThreads DBPool.ProdPool
    (final (serve IceServer.serverThreads) (.start DBPool.ProdPool) waitingLogins) :=
  calls_complete Operation.answer IceServer.serverThreads DBPool.ProdPool waitingLogins (by decide)

/-- No thread is left to read the answers of the clients. -/
example : (final (serve IceServer.serverThreads) (.start DBPool.ProdPool) waitingLogins).Standstill
    IceServer.serverThreads Request.contacts :=
  ⟨by decide, by decide⟩

end SecureChat
