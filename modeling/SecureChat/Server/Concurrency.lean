import SecureChat.Library.Ledger
import SecureChat.Server.ThreadPool

/-!
# Registrations at the same time

`registerUser` looks for a row with its `SELECT` and adds one with a later `INSERT`. Nothing keeps
another call from adding a row in between, so a name is registered once exactly as long as what
each `SELECT` saw still holds at the `INSERT`.
-/

namespace SecureChat
open Library Body

section
variable [Storage]

/-! ## The ledger of the statements -/

def Statement.change : Statement → Option (Change StdString Row)
  | .insert row => some (.put (asText row.id) row.asTexts)
  | .delete id => some (.drop (asText id))
  | _ => none

def changes (events : List Event) : List (Change StdString Row) :=
  events.filterMap fun e => e.statement.bind Statement.change

/-- No row has been inserted under the name since the last deletion. -/
def Vacant (events : List Event) (k : StdString) : Prop :=
  Ledger.replay (changes events) k = none

@[simp] theorem changes_concat (events : List Event) (e : Event) :
    changes (events ++ [e]) = changes events ++ (e.statement.bind Statement.change).toList := by
  cases change : e.statement.bind Statement.change <;> simp [changes, change]

theorem execute_isSome {users : Users} (table : users.isSome) (s : Statement) :
    (s.execute users).2.isSome := by
  obtain ⟨rows, rfl⟩ := Option.isSome_iff_exists.mp table
  cases s <;> rfl

theorem rowsOf_execute (s : Statement) (users : Users) (k : StdString)
    (table : users.isSome ∨ ∀ row, s ≠ .insert row) :
    (s.execute users).2.rowsOf k = match s with
      | .insert row => users.rowsOf k ++ if asText row.id = k then [row.asTexts] else []
      | .delete id => if k = asText id then [] else users.rowsOf k
      | _ => users.rowsOf k := by
  cases users with
  | none =>
      cases s with
      | insert row => simp at table
      | _ => simp [Statement.execute, Users.rowsOf, Users.rows]
  | some rows =>
      cases s with
      | insert row => exact Users.rowsOf_insert rows row.asTexts k
      | delete id => exact Users.rowsOf_delete rows (asText id) k
      | _ => rfl

theorem vacant_step {events : List Event} {e : Event} {users after : Users} {k : StdString}
    (now : Vacant events k ↔ users.rowsOf k = [])
    (table : users.isSome ∨ ∀ row, e.statement ≠ some (.insert row))
    (effect : after = (e.statement.elim users fun s => (s.execute users).2)) :
    Vacant (events ++ [e]) k ↔ after.rowsOf k = [] := by
  unfold Vacant at now ⊢
  rw [effect, changes_concat]
  cases executed : e.statement with
  | none => simpa using now
  | some s =>
      have rows := rowsOf_execute s users k
        (table.imp_right fun other row same => other row (same ▸ executed))
      simp only [Option.elim_some, rows, Option.bind_some]
      cases s with
      | insert row =>
          by_cases same : asText row.id = k
          · simp [Statement.change, same]
          · simp [Statement.change, same, Ne.symm same, now]
      | delete id => by_cases same : k = asText id <;> simp [Statement.change, same, now]
      | _ => simpa [Statement.change] using now

end

/-! ## Calls that insert nothing -/

def Request.IsInsert (r : Request) : Prop := ∃ row, r = .sql (.insert row)

theorem spares_orThrow {ε α : Type} (wrap : ε → Fault) (answer : Except ε α) :
    Program.Spares Request.IsInsert (Body.orThrow wrap answer) := by
  cases answer with
  | ok value => exact Program.spares_pure value
  | error e => exact Program.spares_throw (wrap e)

theorem spares_sql {s : Statement} (good : ∀ row, s ≠ .insert row) :
    Program.Spares Request.IsInsert (Body.sql s) :=
  Program.spares_bind (Program.spares_ask (by simpa [Request.IsInsert] using good)) fun answer =>
    spares_orThrow .soci answer

theorem spares_callbackForID (callbackID : Identity) :
    Program.Spares Request.IsInsert (Body.callbackForID callbackID) :=
  Program.spares_bind (Program.spares_ask (by simp [Request.IsInsert])) fun answer => spares_orThrow id answer

theorem spares_echo (callbackID : Identity) (text : StdString) :
    Program.Spares Request.IsInsert (Body.echo callbackID text) :=
  Program.spares_bind (Program.spares_ask (by simp [Request.IsInsert])) fun answer => spares_orThrow id answer

theorem spares_exposeObject (session : SessionImpl) :
    Program.Spares Request.IsInsert (Body.exposeObject session) :=
  Program.spares_bind (Program.spares_ask (by simp [Request.IsInsert])) fun answer => spares_orThrow id answer

theorem spares_info (args : List StdString) : Program.Spares Request.IsInsert (Body.info args) :=
  Program.spares_ask (by simp [Request.IsInsert])

theorem spares_login (u : User) (pw : StdString) (callbackID : Identity) :
    Program.Spares Request.IsInsert (AuthenticationImpl.login u pw callbackID) := by
  refine Program.spares_bind (spares_sql (by simp)) fun _ => ?_
  refine Program.spares_bind (spares_sql (by simp)) fun found => ?_
  cases found with
  | none => exact Program.spares_throw _
  | some stored =>
      dsimp only
      split
      · exact Program.spares_throw _
      split
      · exact Program.spares_throw _
      refine Program.spares_bind (spares_callbackForID callbackID) fun _ => ?_
      refine Program.spares_bind (spares_echo callbackID _) fun answer => ?_
      split
      · exact Program.spares_throw _
      exact Program.spares_bind (spares_info _) fun _ => spares_exposeObject _

theorem spares_invoke (session : SessionImpl) (m : SessionMethod) :
    Program.Spares Request.IsInsert (session.invoke m) := by
  have logs {α : Type} (args : List StdString) (value : α) :
      Program.Spares Request.IsInsert (do Body.info args; return value) :=
    Program.spares_bind (spares_info args) fun _ => Program.spares_pure value
  cases m with
  | logout =>
      refine Program.spares_bind (Program.spares_bind (spares_info _) fun _ => ?_)
        fun _ => Program.spares_pure _
      exact Program.spares_ask (by simp [Request.IsInsert])
  | deleteUser u =>
      refine Program.spares_bind ?_ fun _ => Program.spares_pure _
      rw [deleteUser_eq]
      split
      · exact Program.spares_throw _
      refine Program.spares_bind (Program.spares_tryCatch (spares_sql (by simp)) fun e => ?_)
        fun _ => spares_info _
      cases e <;> exact Program.spares_throw _
  | retrieveUser userID => exact Program.spares_pure _
  | initChat | retrieveLoglist | retrieveLog _ _ | retrieveContactList =>
      exact Program.spares_bind (logs _ _) fun _ => Program.spares_pure _
  | _ => exact logs _ _

/-! ## The phases of registerUser -/

/-- The rest of `registerUser` after its `CREATE TABLE`. -/
def selectRest (u : User) (pw : StdString) : Body Unit := do
  let id : Option StdString := (← selectUser (key u.ID)).map Row.id
  if id.isSome then
    throw (AuthenticationException (lit "ID already exists"))
  insertUser ⟨key u.ID, pw, u.publicKey.toStdString⟩
  info [lit "Registered ", u.ID]

def insertRest (u : User) (pw : StdString) : Body Unit := do
  insertUser ⟨key u.ID, pw, u.publicKey.toStdString⟩
  info [lit "Registered ", u.ID]

def foundRest (u : User) (pw : StdString) (found : Option Row) : Body Unit := do
  if (found.map Row.id).isSome then
    throw (AuthenticationException (lit "ID already exists"))
  insertRest u pw

def finish (b : Body Unit) : Program Request Request.Reply Result :=
  (do b; return Value.void : Body Value).run

section
variable [Storage]

section
variable (u : User) (pw : StdString) (w : World)

theorem advance_creating :
    (finish (AuthenticationImpl.registerUser u pw)).advance (Operation.registerUser u pw).answer
      Request.isStatement w = (finish (selectRest u pw), w.opened) := rfl

theorem advance_selecting {rows : List Row} (table : w.users = some rows) :
    (finish (selectRest u pw)).advance (Operation.registerUser u pw).answer Request.isStatement w =
      match w.users.find (account u.ID) with
      | none => (finish (insertRest u pw), w)
      | some _ => (.done (.error (AuthenticationException (lit "ID already exists"))), w) := by
  rcases w with ⟨users, servants⟩
  subst table
  change (finish (foundRest u pw (Users.fetch (some rows) (key u.ID)))).settle _ _ _ = _
  rw [Users.fetch_key]
  cases Users.find (some rows) (account u.ID) <;> rfl

theorem advance_inserting {rows : List Row} (table : w.users = some rows) :
    (finish (insertRest u pw)).advance (Operation.registerUser u pw).answer Request.isStatement w =
      (.done (.ok .void), w.setUsers (some (rows ++ [u.row pw]))) := by
  rcases w with ⟨users, servants⟩
  subst table
  rfl

end

/-! ## What one step does -/

theorem answer_users (op : Operation) (r : Request) (w : World) :
    (op.answer r w).2.users = r.statement.elim w.users fun s => (s.execute w.users).2 := by
  cases r with
  | exposeObject session =>
      simp only [Operation.answer, Request.statement, Option.elim_none]
      split <;> rfl
  | _ => rfl

theorem settle_users (op : Operation) (p : Program Request Request.Reply Result) (w : World) :
    (p.settle op.answer Request.isStatement w).2.users = w.users := by
  refine Program.settle_keeps op.answer Request.isStatement World.users (fun r w silent => ?_) p w
  have none : r.statement = none := by simpa using silent
  rw [answer_users, none, Option.elim_none]

theorem advance_users (op : Operation) (r : Request) (next : r.Reply → Program Request Request.Reply Result)
    (w : World) : ((Program.request r next).advance op.answer Request.isStatement w).2.users =
      r.statement.elim w.users fun s => (s.execute w.users).2 := by
  rw [Program.advance, settle_users, answer_users]

/-- The last statement of the thread was the `SELECT` for the name, and the statements since then
tell whether the name has rows. -/
def LookedUp (events : List Event) (users : Users) (i : Nat) (k : StdString) : Prop :=
  ∃ before selected since, events = before ++ selected :: since ∧ selected.thread = i ∧
    selected.statement = some (.select k) ∧ (∀ e ∈ since, e.thread ≠ i) ∧
    (Vacant since (asText k) ↔ users.rowsOf (asText k) = [])

inductive ThreadSound (events : List Event) (users : Users) (i : Nat) : Thread → Prop
  | creating (u : User) (pw : StdString) :
      ThreadSound events users i ⟨.registerUser u pw, finish (AuthenticationImpl.registerUser u pw)⟩
  | selecting (u : User) (pw : StdString) (table : users.isSome) :
      ThreadSound events users i ⟨.registerUser u pw, finish (selectRest u pw)⟩
  | inserting (u : User) (pw : StdString) (table : users.isSome)
      (lookedUp : LookedUp events users i (key u.ID)) :
      ThreadSound events users i ⟨.registerUser u pw, finish (insertRest u pw)⟩
  | returned (call : Operation) (result : Result) : ThreadSound events users i ⟨call, .done result⟩
  | other (call : Operation) (rest : Program Request Request.Reply Result)
      (different : ∀ u pw, call ≠ .registerUser u pw) (avoids : rest.Avoids Request.IsInsert) :
      ThreadSound events users i ⟨call, rest⟩

/-- What a step tells: a row is inserted only after its name was looked up, and a registration
that has returned either inserted its row with this step or threw an `AuthenticationException`. -/
structure EventSound (events : List Event) (users : Users) (e : Event) : Prop where
  inserts : ∀ row, e.statement = some (.insert row) → users.isSome ∧ LookedUp events users e.thread row.id
  registered : ∀ u pw result, e.call = .registerUser u pw → e.returned = some result →
    (result = .ok .void ∧ ∃ row, e.statement = some (.insert row) ∧ row.id = key u.ID) ∨
    ∃ what, result = .error (AuthenticationException what)

structure Stepped (events : List Event) (now : ThreadPool) (e : Event) (after : ThreadPool) : Prop where
  event : EventSound events now.world.users e
  users : after.world.users = e.statement.elim now.world.users fun s => (s.execute now.world.users).2
  others : ∀ i, i ≠ e.thread → ∀ t, after.threads[i]? = some t → now.threads[i]? = some t
  moved : ∀ t, after.threads[e.thread]? = some t → ThreadSound (events ++ [e]) after.world.users e.thread t

def Steps (events : List Event) (now : ThreadPool) (a : Action) : Prop :=
  ∃ e, (ThreadPool.act a now).1 = some e ∧ Stepped events now e (ThreadPool.act a now).2

section
variable {events : List Event} {now : ThreadPool}

theorem started_sound (op : Operation) (w : World) (users : Users) (i : Nat) :
    ThreadSound events users i ⟨op, ((op.body w).run.settle op.answer Request.isStatement w).1⟩ := by
  cases op with
  | registerUser u pw => exact .creating u pw
  | login u pw callbackID con uuid =>
      refine .other _ _ (by simp) (Program.Avoids.settle _ ?_ _ _)
      exact Program.spares_bind (spares_login u pw callbackID) fun _ => Program.spares_pure _
  | invoke uuid m =>
      refine .other _ _ (by simp) (Program.Avoids.settle _ ?_ _ _)
      rw [Operation.body]
      cases w.servants uuid with
      | none => exact Program.spares_throw _
      | some session => exact spares_invoke session m

theorem dispatch_steps (op : Operation) : Steps events now (.dispatch op) := by
  refine ⟨_, rfl, ⟨by simp, ?_⟩, settle_users .., ?_, ?_⟩
  · intro u pw result called returned
    cases called
    contradiction
  · intro i other t found
    simp only [ThreadPool.act, List.getElem?_append] at found
    split at found
    · exact found
    · next late =>
        have beyond : i - now.threads.length ≠ 0 := by
          have : i ≠ now.threads.length := other
          omega
        simp [beyond] at found
  · intro t found
    simp [ThreadPool.act] at found
    subst found
    exact started_sound op now.world _ _

section
variable {i : Nat}

theorem advance_stepped {call : Operation} {rest rest' : Program Request Request.Reply Result} {w : World}
    {r : Request} {next : r.Reply → Program Request Request.Reply Result}
    (found : now.threads[i]? = some ⟨call, rest⟩) (shape : rest = .request r next)
    (moved : rest.advance call.answer Request.isStatement now.world = (rest', w))
    (event : EventSound events now.world.users ⟨i, call, r.statement, rest'.value?⟩)
    (sound : ThreadSound (events ++ [⟨i, call, r.statement, rest'.value?⟩]) w.users i ⟨call, rest'⟩) :
    Steps events now (.advance i) := by
  subst shape
  have acted : ThreadPool.act (.advance i) now =
      (some ⟨i, call, r.statement, rest'.value?⟩, ⟨w, now.threads.set i ⟨call, rest'⟩⟩) := by
    simp only [ThreadPool.act, found, moved]
  have users := advance_users call r next now.world
  rw [moved] at users
  rw [Steps, acted]
  refine ⟨_, rfl, event, users, ?_, ?_⟩
  · intro j other t found
    rwa [List.getElem?_set_ne (Ne.symm other)] at found
  · intro t found'
    have here := (List.getElem?_eq_some_iff.mp found).1
    simp only [List.getElem?_set_self here, Option.some.injEq] at found'
    rw [← found']
    exact sound

theorem creating_steps {u : User} {pw : StdString}
    (found : now.threads[i]? = some ⟨.registerUser u pw, finish (AuthenticationImpl.registerUser u pw)⟩) :
    Steps events now (.advance i) := by
  obtain ⟨next, shape⟩ : ∃ next, finish (AuthenticationImpl.registerUser u pw) =
    .request (.sql .createTable) next := ⟨_, rfl⟩
  refine advance_stepped found shape (advance_creating u pw now.world) ⟨?_, ?_⟩ (.selecting u pw rfl)
  · simp [Request.statement]
  · intro u' pw' result _ returned
    contradiction

theorem selecting_steps {u : User} {pw : StdString}
    (found : now.threads[i]? = some ⟨.registerUser u pw, finish (selectRest u pw)⟩)
    (table : now.world.users.isSome) : Steps events now (.advance i) := by
  obtain ⟨rows, stored⟩ := Option.isSome_iff_exists.mp table
  obtain ⟨next, shape⟩ : ∃ next, finish (selectRest u pw) =
    .request (.sql (.select (key u.ID))) next := ⟨_, rfl⟩
  have moved := advance_selecting u pw now.world stored
  cases looked : now.world.users.find (account u.ID) with
  | none =>
      rw [looked] at moved
      -- no statement has followed this SELECT yet, and it found no row
      have vacant : Vacant [] (account u.ID) ↔ now.world.users.rowsOf (account u.ID) = [] := by
        simp [Vacant, changes, Users.find_eq_none.mp looked]
      refine advance_stepped found shape moved ⟨by simp [Request.statement], ?_⟩
        (.inserting u pw table ⟨events, _, [], rfl, rfl, rfl, by simp, vacant⟩)
      intro u' pw' result _ returned
      contradiction
  | some row =>
      rw [looked] at moved
      refine advance_stepped found shape moved ⟨by simp [Request.statement], ?_⟩ (.returned _ _)
      intro u' pw' result _ returned
      exact .inr ⟨_, (Option.some.inj returned).symm⟩

theorem inserting_steps {u : User} {pw : StdString}
    (found : now.threads[i]? = some ⟨.registerUser u pw, finish (insertRest u pw)⟩)
    (table : now.world.users.isSome) (lookedUp : LookedUp events now.world.users i (key u.ID)) :
    Steps events now (.advance i) := by
  obtain ⟨rows, stored⟩ := Option.isSome_iff_exists.mp table
  obtain ⟨next, shape⟩ : ∃ next, finish (insertRest u pw) =
    .request (.sql (.insert ⟨key u.ID, pw, u.publicKey.toStdString⟩)) next := ⟨_, rfl⟩
  refine advance_stepped found shape (advance_inserting u pw now.world stored) ⟨?_, ?_⟩ (.returned _ _)
  · intro row inserted
    cases inserted
    exact ⟨table, lookedUp⟩
  · intro u' pw' result called returned
    cases called
    exact .inl ⟨(Option.some.inj returned).symm, _, rfl, rfl⟩

theorem other_steps {call : Operation} {r : Request} {next : r.Reply → Program Request Request.Reply Result}
    (found : now.threads[i]? = some ⟨call, .request r next⟩)
    (different : ∀ u pw, call ≠ .registerUser u pw)
    (avoids : (Program.request r next).Avoids Request.IsInsert) : Steps events now (.advance i) := by
  refine advance_stepped found rfl rfl ⟨?_, ?_⟩ (.other _ _ different ?_)
  · intro row inserted
    have request : r = .sql (.insert row) := by
      cases r <;> simp_all [Request.statement]
    exact absurd ⟨row, request⟩ avoids.1
  · intro u pw result called
    exact absurd called (different u pw)
  · exact Program.Avoids.settle _ (avoids.2 _) _ _

end

theorem advance_steps (sound : ∀ i t, now.threads[i]? = some t → ThreadSound events now.world.users i t)
    (i : Nat) : (ThreadPool.act (.advance i) now).1 = none ∧ (ThreadPool.act (.advance i) now).2 = now ∨
      Steps events now (.advance i) := by
  cases found : now.threads[i]? with
  | none => exact .inl (by simp [ThreadPool.act, found])
  | some t =>
      cases sound i t found with
      | creating u pw => exact .inr (creating_steps found)
      | selecting u pw table => exact .inr (selecting_steps found table)
      | inserting u pw table lookedUp => exact .inr (inserting_steps found table lookedUp)
      | returned call result => exact .inl (by simp [ThreadPool.act, found])
      | other call rest different avoids =>
          cases rest with
          | done result => exact .inl (by simp [ThreadPool.act, found])
          | request r next => exact .inr (other_steps found different avoids)

/-! ## Coherence along a schedule -/

theorem Stepped.vacant {e : Event} {after : ThreadPool} (stepped : Stepped events now e after)
    {since : List Event} {k : StdString} (before : Vacant since k ↔ now.world.users.rowsOf k = []) :
    Vacant (since ++ [e]) k ↔ after.world.users.rowsOf k = [] := by
  refine vacant_step before ?_ stepped.users
  by_cases inserts : ∃ row, e.statement = some (.insert row)
  · obtain ⟨row, inserts⟩ := inserts
    exact .inl (stepped.event.inserts row inserts).1
  · exact .inr fun row same => inserts ⟨row, same⟩

theorem Stepped.table {e : Event} {after : ThreadPool} (stepped : Stepped events now e after)
    (table : now.world.users.isSome) : after.world.users.isSome := by
  rw [stepped.users]
  cases e.statement with
  | none => exact table
  | some s => exact execute_isSome table s

theorem Stepped.other_thread {e : Event} {after : ThreadPool} (stepped : Stepped events now e after) {i : Nat}
    {t : Thread} (other : i ≠ e.thread) (sound : ThreadSound events now.world.users i t) :
    ThreadSound (events ++ [e]) after.world.users i t := by
  cases sound with
  | creating u pw => exact .creating u pw
  | selecting u pw table => exact .selecting u pw (stepped.table table)
  | inserting u pw table lookedUp =>
      obtain ⟨before, selected, since, rfl, thread, looked, others, vacant⟩ := lookedUp
      exact .inserting u pw (stepped.table table) ⟨before, selected, since ++ [e], by simp, thread, looked,
        forall_mem_concat.mpr ⟨others, other.symm⟩, stepped.vacant vacant⟩
  | returned call result => exact .returned call result
  | other call rest different avoids => exact .other call rest different avoids

end

structure Coherent (events : List Event) (now : ThreadPool) : Prop where
  threads : ∀ i t, now.threads[i]? = some t → ThreadSound events now.world.users i t
  ledger : ∀ k, Vacant events k ↔ now.world.users.rowsOf k = []

theorem Coherent.stepped {events : List Event} {now after : ThreadPool} {e : Event}
    (coherent : Coherent events now) (stepped : Stepped events now e after) :
    Coherent (events ++ [e]) after where
  threads i t found := by
    by_cases moved : i = e.thread
    · subst moved
      exact stepped.moved t found
    · exact stepped.other_thread moved (coherent.threads i t (stepped.others i moved t found))
  ledger k := stepped.vacant (coherent.ledger k)

theorem Coherent.act {events : List Event} {now : ThreadPool} (coherent : Coherent events now) (a : Action) :
    (ThreadPool.act a now).1 = none ∧ (ThreadPool.act a now).2 = now ∨ Steps events now a := by
  cases a with
  | dispatch op => exact .inr (dispatch_steps op)
  | advance i => exact advance_steps coherent.threads i

omit [Storage] in
theorem eventsOf_concat (h : List (Moment ThreadPool Action (Option Event)))
    (m : Moment ThreadPool Action (Option Event)) : eventsOf (h ++ [m]) = eventsOf h ++ m.output.toList := by
  cases output : m.output <;> simp [eventsOf, output]

theorem coherent (actions : List Action) : Coherent (trace actions) (pool actions) := by
  refine history_rule ThreadPool.act (fun h now => Coherent (eventsOf h) now) ⟨?_, ?_⟩ ?_ actions
  · simp [ThreadPool.start]
  · simp [eventsOf, Vacant, changes, ThreadPool.start, World.empty, Users.rowsOf, Users.rows]
  · intro h now a coherent
    rw [eventsOf_concat]
    rcases coherent.act a with ⟨silent, same⟩ | ⟨e, output, stepped⟩
    · simpa [moment, silent, same] using coherent
    · simpa [moment, output] using coherent.stepped stepped

theorem schedule_step (actions : List Action) (a : Action) :
    trace (actions ++ [a]) = trace actions ∧ pool (actions ++ [a]) = pool actions ∨
    ∃ e, trace (actions ++ [a]) = trace actions ++ [e] ∧
      Stepped (trace actions) (pool actions) e (pool (actions ++ [a])) := by
  rw [pool, final_concat, trace, history_concat, eventsOf_concat]
  rcases (coherent actions).act a with ⟨silent, same⟩ | ⟨e, output, stepped⟩
  · exact .inl ⟨by simp [moment, silent, trace], same⟩
  · exact .inr ⟨e, by simp [moment, output, trace], stepped⟩

end
end SecureChat
