import SecureChat.Server.Interference

/-!
# The contracts of the calls

What each call is allowed to do to sessions and accounts and how it may end, in any interleaving.
A session is exposed only by a login that has seen its own password in the table since it came in;
a row is deleted only through such a session; and a call ends with what its interface declares, if
no statement of it fails but on a missing table.
-/

namespace SecureChat
open Library Library.Program Body

/-! ## The interface -/

/-- The class in the `throws` clause of each operation; `InterServerException` is never thrown. -/
def SessionMethod.throws : SessionMethod → ExceptionClass
  | .logout => .userHandling
  | .retrieveUser _ => .userHandling
  | .initChat => .session
  | .leaveChat _ => .session
  | .invite _ _ _ => .userHandling
  | .sendMessage _ _ => .message
  | .deleteUser _ => .userHandling
  | .saveLog _ _ _ => .log
  | .retrieveLoglist => .log
  | .retrieveLog _ _ => .log
  | .saveContactList _ => .contact
  | .retrieveContactList => .contact

def ExceptionClass.isA (kind base : ExceptionClass) : Prop :=
  kind = base ∨ kind.parent = some base ∨ kind.parent.bind parent = some base

def SessionMethod.returns : SessionMethod → Value → Prop
  | .logout, v | .leaveChat _, v | .invite _ _ _, v | .sendMessage _ _, v | .deleteUser _, v
  | .saveLog _ _ _, v | .saveContactList _, v => v = .void
  | .retrieveUser _, v => ∃ u, v = .user u
  | .initChat, v => ∃ s, v = .string s
  | .retrieveLoglist, v => ∃ entries, v = .loglist entries
  | .retrieveLog _ _, v | .retrieveContactList, v => ∃ c, v = .container c

namespace Operation

def throws : Operation → ExceptionClass
  | .registerUser _ _ => .authentication
  | .login _ _ _ _ _ => .authentication
  | .invoke _ m => m.throws

def returns : Operation → Value → Prop
  | .registerUser _ _, v => v = .void
  | .login _ _ _ _ uuid, v => v = .proxy uuid
  | .invoke _ m, v => m.returns v

/-- What the run time can report: a UUID that is taken, or a session that is not there. -/
def reports : Operation → IceError → Prop
  | .registerUser _ _, _ => False
  | .login _ _ _ _ _, e => e = .alreadyRegistered
  | .invoke _ _, e => e = .objectNotExist

/-- What the client's own callback has failed with. -/
def relays : Operation → Fault → Prop
  | .login _ _ callbackID con _, f =>
      con.checkedCast callbackID = .error f ∨ con.echo callbackID (lit "42") = .error f
  | _, _ => False

def Conforms (op : Operation) : Result → Prop
  | .ok v => op.returns v
  | .error (.raised kind what) => kind.isA op.throws ∨ op.relays (.raised kind what)
  | .error (.ice e) => op.reports e ∨ op.relays (.ice e)
  | .error (.soci e) => op.relays (.soci e)

theorem conforms_relayed {op : Operation} {f : Fault} (relayed : op.relays f) : op.Conforms (.error f) := by
  cases f with
  | soci e => exact relayed
  | _ => exact .inr relayed

/-- A login with the account and the password of this row, which a session of this user is for. -/
def Admits [Storage] (op : Operation) (row : Row) (user : User) : Prop :=
  match op with
  | .login u pw callbackID con _ => row.id = account u.ID ∧ asText row.pw = pw ∧
      (u.publicKey.toStdString = [] ∨ u.publicKey.toStdString = asText row.pubkey) ∧
      con.checkedCast callbackID = .ok () ∧ con.echo callbackID (lit "42") = .ok (lit "42") ∧
      user = ⟨key u.ID, (asText row.pubkey).toByteSeq⟩
  | _ => False

end Operation

section
variable [Storage]

/-! ## Sessions and deletions -/

/-- Since the login has come in, its row has been the first one of its account. -/
def Admitted (past : List Action) (op : Operation) (user : User) : Prop :=
  ∃ before first row, before ++ [.dispatch op] <+: first ∧ first <+: past ∧
    (interleaving first).world.users.find row.id = some row ∧ op.Admits row user

/-- A login that was given this UUID has been admitted as this user. -/
def Authenticated (past : List Action) (uuid : StdString) (user : User) : Prop :=
  ∃ op, op.issued = some uuid ∧ Admitted past op user

theorem Authenticated.mono {past later : List Action} {uuid : StdString} {user : User}
    (authenticated : Authenticated past uuid user) (grows : past <+: later) : Authenticated later uuid user := by
  obtain ⟨op, issued, before, first, row, came, within, seen, admits⟩ := authenticated
  exact ⟨op, issued, before, first, row, came, within.trans grows, seen, admits⟩

/-- The ID of a session is a name without a server. -/
theorem Authenticated.key_id {past : List Action} {uuid : StdString} {user : User}
    (authenticated : Authenticated past uuid user) : key user.ID = user.ID := by
  obtain ⟨op, _, _, _, row, _, _, _, admits⟩ := authenticated
  cases op with
  | login u pw callbackID con uuid' =>
      obtain ⟨_, _, _, _, _, rfl⟩ := admits
      exact key_key u.ID
  | _ => exact admits.elim

/-- A registration of this row. -/
def Operation.Registers (op : Operation) (row : Row) : Prop :=
  match op with
  | .registerUser u pw => row = ⟨key u.ID, pw, u.publicKey.toStdString⟩
  | _ => False

/-- Only a registration inserts its row, only an admitted login exposes a session, only a session
deletes its own row, and the `loggedIn` flag of a session is only ever cleared. -/
def Permitted (op : Operation) (r : Request) (s : Instant) : Prop :=
  match r with
  | .exposeObject session => op.issued.isSome ∧ Admitted s.past op session.user
  | .sql (.insert row) => op.Registers row
  | .sql (.delete name) => ∃ uuid u user, op = .invoke uuid (.deleteUser u) ∧ u.ID = user.ID ∧ name = user.ID ∧
      Authenticated s.past uuid user
  | .setLoggedIn value => value = false
  | _ => True

/-- The `i`th thread has exposed a session of this account under a UUID that was not taken. -/
def Exposed (past : List Action) (i : Nat) (uuid id : StdString) : Prop :=
  ∃ before session, before ++ [.advance i] <+: past ∧ (interleaving before).world.servants uuid = none ∧
    (interleaving (before ++ [.advance i])).world.servants uuid = some session ∧ session.user.ID = id

theorem Exposed.mono {past later : List Action} {i : Nat} {uuid id : StdString} (exposed : Exposed past i uuid id)
    (grows : past <+: later) : Exposed later i uuid id := by
  obtain ⟨before, session, within, rest⟩ := exposed
  exact ⟨before, session, within.trans grows, rest⟩

/-- The `i`th thread has come in when there was no session with this UUID. -/
def Astray (past : List Action) (i : Nat) (uuid : StdString) : Prop :=
  ∃ before op, before ++ [.dispatch op] <+: past ∧ (interleaving before).threads.length = i ∧
    (interleaving before).world.servants uuid = none

/-- How the `i`th thread may end: as its interface declares, with a session of its own after a
login, and without the session only if there was none. -/
structure Completes (i : Nat) (op : Operation) (result : Result) (past : List Action) : Prop where
  conforms : op.Conforms result
  exposed : ∀ u pw callbackID con uuid, op = .login u pw callbackID con uuid →
    result = .ok (.proxy uuid) → Exposed past i uuid (key u.ID)
  astray : ∀ uuid m, op = .invoke uuid m → result = .error (.ice .objectNotExist) → Astray past i uuid

theorem stable_completes : Stable Completes := by
  intro i op result past later grows completes
  refine ⟨completes.conforms, ?_, ?_⟩
  · intro u pw callbackID con uuid same ended
    exact (completes.exposed u pw callbackID con uuid same ended).mono grows
  · intro uuid m same ended
    obtain ⟨before, op, within, rest⟩ := completes.astray uuid m same ended
    exact ⟨before, op, within.trans grows, rest⟩

/-! ## One request after the other -/

section
variable {actions : List Action} {op : Operation} {i : Nat} {s : Instant}

/-- The `i`th thread, which handles `op`, does as it is permitted and ends this way. -/
abbrev Does {α : Type} (actions : List Action) (op : Operation) (i : Nat)
    (ends : Except Fault α → Instant → Prop) (p : Body α) (s : Instant) : Prop :=
  MeetsExcept (Instant.answer op i) (Instant.Leads actions) (Permitted op) ends p s

theorem does_orThrow {ε α : Type} {wrap : ε → Fault} {answer : Except ε α} {ends : Except Fault α → Instant → Prop}
    (right : ends (answer.mapError wrap) s) : Does actions op i ends (orThrow wrap answer) s := by
  cases answer with
  | ok value => exact right
  | error e => exact right

theorem does_sql {st : Statement} {ends : Except Fault st.Fetched → Instant → Prop}
    (permitted : ∀ t, Instant.Leads actions s t → Permitted op (.sql st) t)
    (right : ∀ t, Instant.Leads actions s t → ends ((st.execute t.world.users).1.mapError .soci)
      ⟨t.past ++ [.advance i], t.world.setUsers (st.execute t.world.users).2⟩) :
    Does actions op i ends (sql st) s :=
  meets_bind (meets_ask fun t leads => ⟨permitted t leads, does_orThrow (right t leads)⟩)

theorem does_createUsers {ends : Except Fault Unit → Instant → Prop}
    (right : ∀ t, s.past <+: t.past → t.world.users.isSome → ends (.ok ()) t) :
    Does actions op i ends createUsers s :=
  does_sql (fun _ _ => trivial) fun _ leads => right _ (leads.grows.trans (List.prefix_append _ _)) rfl

theorem does_selectUser {id : StdString} {ends : Except Fault (Option Row) → Instant → Prop}
    (table : s.world.users.isSome)
    (right : ∀ t first, s.past <+: first → first <+: t.past → t.world.users.isSome →
      ends (.ok ((interleaving first).world.users.fetch id)) t) :
    Does actions op i ends (selectUser id) s := by
  refine does_sql (fun _ _ => trivial) fun t leads => ?_
  obtain ⟨rows, users⟩ := Option.isSome_iff_exists.mp (leads.table table)
  have found : (Statement.select id).execute t.world.users = (.ok (t.world.users.fetch id), t.world.users) := by
    rw [users]
    rfl
  rw [found]
  have coherent : t.world = (interleaving t.past).world := leads.world
  have seen := right ⟨t.past ++ [.advance i], t.world⟩ t.past leads.grows (List.prefix_append _ _) (leads.table table)
  rw [← coherent] at seen
  exact seen

theorem does_insertUser {row : Row} {ends : Except Fault Unit → Instant → Prop} (table : s.world.users.isSome)
    (registers : op.Registers row) (right : ∀ t, ends (.ok ()) t) : Does actions op i ends (insertUser row) s := by
  refine does_sql (fun _ _ => registers) fun t leads => ?_
  obtain ⟨rows, users⟩ := Option.isSome_iff_exists.mp (leads.table table)
  rw [users]
  exact right _

theorem does_info {args : List StdString} {ends : Except Fault Unit → Instant → Prop}
    (right : ∀ t, s.past <+: t.past → ends (.ok ()) t) : Does actions op i ends (info args) s :=
  meets_ask fun _ leads => ⟨trivial, right _ (leads.grows.trans (List.prefix_append _ _))⟩

theorem does_callbackForID {callbackID : Identity} {ends : Except Fault Unit → Instant → Prop}
    (right : ∀ t, s.past <+: t.past → ends (op.con.checkedCast callbackID) t) :
    Does actions op i ends (callbackForID callbackID) s := by
  refine meets_bind (meets_ask fun t leads => ⟨trivial, does_orThrow ?_⟩)
  have later := right ⟨t.past ++ [.advance i], t.world⟩ (leads.grows.trans (List.prefix_append _ _))
  simp only [Instant.answer, Operation.answer]
  cases cast : op.con.checkedCast callbackID <;> simpa [cast, Except.mapError] using later

theorem does_echo {callbackID : Identity} {text : StdString} {ends : Except Fault StdString → Instant → Prop}
    (right : ∀ t, s.past <+: t.past → ends (op.con.echo callbackID text) t) :
    Does actions op i ends (echo callbackID text) s := by
  refine meets_bind (meets_ask fun t leads => ⟨trivial, does_orThrow ?_⟩)
  have later := right ⟨t.past ++ [.advance i], t.world⟩ (leads.grows.trans (List.prefix_append _ _))
  simp only [Instant.answer, Operation.answer]
  cases echoed : op.con.echo callbackID text <;> simpa [echoed, Except.mapError] using later

theorem does_exposeObject {session : SessionImpl} {ends : Except Fault StdString → Instant → Prop}
    (permitted : ∀ t, s.past <+: t.past → Permitted op (.exposeObject session) t)
    (taken : ∀ t, ends (.error (.ice .alreadyRegistered)) t)
    (right : ∀ t : Instant, t.Coherent → t.world.servants op.uuid = none →
      ends (.ok op.uuid) ⟨t.past ++ [.advance i], t.world.setServant op.uuid (some session)⟩) :
    Does actions op i ends (exposeObject session) s := by
  refine meets_bind (meets_ask fun t leads => ⟨permitted t leads.grows, does_orThrow ?_⟩)
  simp only [Instant.answer, Operation.answer]
  split
  · exact taken _
  · next free => exact right t leads.world (by simpa using free)

theorem does_setLoggedIn {ends : Except Fault Unit → Instant → Prop} (right : ∀ t, ends (.ok ()) t) :
    Does actions op i ends (setLoggedIn false) s :=
  meets_ask fun _ _ => ⟨rfl, right _⟩

theorem does_check {α : Type} {c : Prop} [Decidable c] {e : Fault} {rest : Body α}
    {ends : Except Fault α → Instant → Prop} (fails : c → ends (.error e) s)
    (goes : ¬ c → Does actions op i ends rest s) :
    Does actions op i ends (do
      if c then
        throw e
      rest) s := by
  by_cases failed : c
  · simp only [if_pos failed]
    exact fails failed
  · simp only [if_neg failed]
    exact goes failed

/-! ## One call after the other -/

theorem does_registerUser {u : User} {pw : StdString} :
    Does actions (.registerUser u pw) i (fun ended _ => (Operation.registerUser u pw).Conforms (ended.map fun _ => .void))
      (AuthenticationImpl.registerUser u pw) s := by
  unfold AuthenticationImpl.registerUser
  refine meets_bind (does_createUsers fun t _ table => ?_)
  refine meets_bind (does_selectUser table fun t first _ _ table => ?_)
  refine does_check (fun _ => .inl (.inl rfl)) fun _ => ?_
  exact meets_bind (does_insertUser table rfl fun t => does_info fun t _ => rfl)

/-- What `exposeObject` leaves behind when the UUID is free. -/
private theorem exposed_answered {t : Instant} {session : SessionImpl} {uuid id : StdString} (coherent : t.Coherent)
    (free : t.world.servants uuid = none)
    (after : Instant.Coherent ⟨t.past ++ [.advance i], t.world.setServant uuid (some session)⟩)
    (own : session.user.ID = id) : Exposed (t.past ++ [.advance i]) i uuid id := by
  have before : t.world = (interleaving t.past).world := coherent
  have exposing : t.world.setServant uuid (some session) = (interleaving (t.past ++ [.advance i])).world := after
  refine ⟨t.past, session, List.prefix_rfl, ?_, ?_, own⟩
  · rw [← before]
    exact free
  · simp [← exposing]

omit [Storage] in
/-- A call that ends with an exception owes no session. -/
private theorem refused {α : Type} {value : α → Value} {e : Fault} {exposed : Prop} (conforms : op.Conforms (.error e)) :
    op.Conforms ((Except.error e : Except Fault α).map value) ∧ ((Except.error e : Except Fault α).isOk → exposed) :=
  ⟨conforms, by simp [Except.isOk, Except.toBool]⟩

theorem does_login {u : User} {pw : StdString} {callbackID : Identity} {con : Connection} {uuid : StdString}
    {before : List Action} (dispatched : before ++ [.dispatch (.login u pw callbackID con uuid)] <+: s.past) :
    Does actions (.login u pw callbackID con uuid) i
      (fun ended t => (Operation.login u pw callbackID con uuid).Conforms (ended.map .proxy) ∧
        (ended.isOk → t.Coherent → Exposed t.past i uuid (key u.ID)))
      (AuthenticationImpl.login u pw callbackID) s := by
  rw [login_eq]
  refine meets_bind (does_createUsers fun t came table => ?_)
  refine meets_bind (does_selectUser table fun t first later seen table => ?_)
  rw [Users.fetch_key]
  cases found : (interleaving first).world.users.find (account u.ID) with
  | none => exact refused (.inl (.inl rfl))
  | some stored =>
      refine does_check (fun _ => refused (.inl (.inl rfl))) fun password => ?_
      refine does_check (fun _ => refused (.inl (.inl rfl))) fun pubkey => ?_
      refine meets_bind (does_callbackForID fun t' called => ?_)
      simp only [Operation.con]
      cases cast : con.checkedCast callbackID with
      | error e => exact refused (Operation.conforms_relayed (.inl cast))
      | ok _ =>
          refine meets_bind (does_echo fun t'' answered => ?_)
          simp only [Operation.con]
          cases echoed : con.echo callbackID (lit "42") with
          | error e => exact refused (Operation.conforms_relayed (.inr echoed))
          | ok text =>
              refine does_check (fun _ => refused (.inl (.inl rfl))) fun correct => ?_
              refine meets_bind (does_info fun t''' logged => ?_)
              have id : stored.id = account u.ID := by simpa using List.find?_some found
              refine does_exposeObject (fun last exposed => ⟨rfl, ?_⟩) (fun _ => refused (.inl rfl))
                fun last coherent free => ⟨rfl, fun _ after => exposed_answered coherent free after rfl⟩
              refine ⟨before, first, stored, dispatched.trans (came.trans later),
                ((seen.trans called).trans (answered.trans logged)).trans exposed, id ▸ found, id, ?_⟩
              refine ⟨(not_not.mp password).symm, ?_, cast, ?_, rfl⟩
              · by_cases provided : u.publicKey.toStdString = []
                · exact .inl provided
                · exact .inr (not_not.mp fun other => pubkey ⟨provided, other⟩)
              · rw [echoed, not_not.mp correct]

theorem does_deleteUser {uuid : StdString} {u : User} {session : SessionImpl}
    (authenticated : Authenticated s.past uuid session.user) :
    Does actions (.invoke uuid (.deleteUser u)) i
      (fun ended _ => (Operation.invoke uuid (.deleteUser u)).Conforms (ended.map fun _ => .void) ∧
        ended ≠ .error (.ice .objectNotExist))
      (session.deleteUser u) s := by
  unfold SessionImpl.deleteUser
  refine does_check (fun _ => ⟨.inl (.inl rfl), nofun⟩) fun own => ?_
  have own := not_not.mp own
  refine meets_bind (meets_tryCatch (does_sql (fun t leads => ?_) fun t leads => ?_))
  · refine ⟨uuid, u, session.user, rfl, own, ?_, authenticated.mono leads.grows⟩
    have name : key u.ID = session.user.ID := own ▸ authenticated.key_id
    exact name
  · cases t.world.users with
    | none => exact ⟨.inl (.inl rfl), nofun⟩
    | some rows => exact does_info fun t _ => ⟨rfl, nofun⟩

theorem does_method {uuid : StdString} {m : SessionMethod} {session : SessionImpl}
    (authenticated : Authenticated s.past uuid session.user) :
    Does actions (.invoke uuid m) i
      (fun ended _ => (Operation.invoke uuid m).Conforms ended ∧ ended ≠ .error (.ice .objectNotExist))
      (session.invoke m) s := by
  cases m with
  | deleteUser u =>
      refine meets_bind ((does_deleteUser authenticated).mono fun ended t right => ?_)
      cases ended with
      | ok value => exact ⟨right.1, nofun⟩
      | error e => exact ⟨right.1, by simpa using right.2⟩
  | logout => exact meets_bind (meets_bind (does_info fun t _ => does_setLoggedIn fun t => ⟨rfl, nofun⟩))
  | retrieveUser userID => exact ⟨⟨_, rfl⟩, nofun⟩
  | initChat => exact meets_bind (meets_bind (does_info fun t _ => ⟨⟨_, rfl⟩, nofun⟩))
  | leaveChat chat => exact meets_bind (does_info fun t _ => ⟨rfl, nofun⟩)
  | invite other chat sessionKey => exact meets_bind (does_info fun t _ => ⟨rfl, nofun⟩)
  | sendMessage message chat => exact meets_bind (does_info fun t _ => ⟨rfl, nofun⟩)
  | saveLog chat timestamp log => exact meets_bind (does_info fun t _ => ⟨rfl, nofun⟩)
  | retrieveLoglist => exact meets_bind (meets_bind (does_info fun t _ => ⟨⟨_, rfl⟩, nofun⟩))
  | retrieveLog chat timestamp => exact meets_bind (meets_bind (does_info fun t _ => ⟨⟨_, rfl⟩, nofun⟩))
  | saveContactList contactList => exact meets_bind (does_info fun t _ => ⟨rfl, nofun⟩)
  | retrieveContactList => exact meets_bind (meets_bind (does_info fun t _ => ⟨⟨_, rfl⟩, nofun⟩))

end

/-! ## Every interleaving -/

theorem servant_turned {a : Action} {now : ThreadPool} {uuid : StdString} {session : SessionImpl}
    (servant : (ThreadPool.turn a now).2.world.servants uuid = some session) :
    (∃ earlier, now.world.servants uuid = some earlier ∧ earlier.user = session.user) ∨
      ∃ turn, (ThreadPool.turn a now).1 = some turn ∧ turn.request = some (.exposeObject session) ∧
        turn.call.uuid = uuid := by
  cases a with
  | dispatch op => exact .inl ⟨session, servant, rfl⟩
  | advance i =>
      rcases idle_or_asks i now with idle | ⟨call, r, next, found⟩
      · rw [idle] at servant
        exact .inl ⟨session, servant, rfl⟩
      · rw [turn_advance found] at servant ⊢
        cases r with
        | exposeObject exposed =>
            simp only [Operation.answer] at servant
            split at servant
            · exact .inl ⟨session, servant, rfl⟩
            · simp only [World.setServant_servants] at servant
              split at servant
              · next same =>
                  obtain rfl := Option.some.inj servant
                  exact .inr ⟨_, rfl, rfl, same.symm⟩
              · exact .inl ⟨session, servant, rfl⟩
        | setLoggedIn value =>
            simp only [Operation.answer, World.setServant_servants] at servant
            split at servant
            · next same =>
                obtain ⟨earlier, there, rfl⟩ := Option.map_eq_some_iff.mp servant
                exact .inl ⟨earlier, same ▸ there, rfl⟩
            · exact .inl ⟨session, servant, rfl⟩
        | _ => exact .inl ⟨session, servant, rfl⟩

/-- Every session that is exposed has come from a login that was admitted as its user. -/
def SessionsAuthenticated (past : List Action) : Prop :=
  ∀ uuid session, (interleaving past).world.servants uuid = some session → Authenticated past uuid session.user

theorem sessionsAuthenticated_of_permitted {past : List Action}
    (permitted : Throughout (AllowedBy fun _ => Permitted) past) : SessionsAuthenticated past := by
  induction past using List.reverseRecOn with
  | nil =>
      intro uuid session servant
      contradiction
  | append_singleton past a ih =>
      obtain ⟨earlier, now⟩ := throughout_concat.mp permitted
      intro uuid session servant
      rw [interleaving_concat] at servant
      rcases servant_turned servant with ⟨before, there, same⟩ | ⟨turn, output, request, named⟩
      · exact same ▸ (ih earlier uuid before there).mono (List.prefix_append _ _)
      · obtain ⟨issued, admitted⟩ := now turn _ output request
        obtain ⟨uuid', same⟩ := Option.isSome_iff_exists.mp issued
        rw [← named, uuid_of_issued same]
        exact Authenticated.mono ⟨turn.call, same, admitted⟩ (List.prefix_append _ _)

private theorem meets_contract {actions past : List Action} {op : Operation}
    (sessions : SessionsAuthenticated past) :
    Thread.Meets (fun _ => Permitted) Completes actions (interleaving past).threads.length
      ⟨op, (op.body (interleaving past).world).run⟩ (.at_ (past ++ [.dispatch op])) := by
  cases op with
  | registerUser u pw =>
      refine meets_bind (does_registerUser.mono fun ended t right => ?_)
      cases ended <;> exact fun _ => ⟨right, by simp, by simp⟩
  | login u pw callbackID con uuid =>
      refine meets_bind ((does_login List.prefix_rfl).mono fun ended t right => ?_)
      cases ended with
      | ok value =>
          refine fun coherent => ⟨right.1, ?_, by simp⟩
          rintro _ _ _ _ _ ⟨⟩ _
          exact right.2 rfl coherent
      | error e => exact fun _ => ⟨right.1, by simp, by simp⟩
  | invoke uuid m =>
      cases servant : (interleaving past).world.servants uuid with
      | none =>
          simp only [Operation.body, servant]
          refine fun _ => ⟨.inl rfl, by simp, ?_⟩
          rintro _ _ ⟨⟩ _
          exact ⟨past, _, List.prefix_rfl, rfl, servant⟩
      | some session =>
          simp only [Operation.body, servant]
          have authenticated := (sessions uuid session servant).mono (List.prefix_append past [.dispatch (.invoke uuid m)])
          refine Program.Meets.mono (fun ended t right _ => ⟨right.1, by simp, ?_⟩) (does_method authenticated)
          exact fun _ _ _ ended => absurd ended right.2

theorem contract (actions : List Action) : Throughout (AllowedBy fun _ => Permitted) actions ∧
    ∀ (i : Nat) (t : Thread), (interleaving actions).threads[i]? = some t →
      ∀ result, t.rest.value? = some result → Completes i t.call result actions :=
  interference_rule stable_completes actions
    fun _ _ _ permitted => meets_contract (sessionsAuthenticated_of_permitted permitted)

/-- However the calls are interleaved, each ends with a value or an exception that its interface
declares, unless a UUID was taken, the session was not there or the client's own callback failed.
No database error gets out, as far as statements only fail on a missing table. -/
def ResultsConform (actions : List Action) : Prop :=
  ∀ t ∈ (interleaving actions).threads, ∀ result, t.rest.value? = some result → t.call.Conforms result

theorem results_conform (actions : List Action) : ResultsConform actions := by
  intro t member result returned
  obtain ⟨i, found⟩ := List.mem_iff_getElem?.mp member
  exact ((contract actions).2 i t found result returned).conforms

/-- However the calls are interleaved, a session is only there for who has given the password that
was stored then, under the UUID of that login, with its name and with the key that was fetched. -/
theorem sessions_authenticated (actions : List Action) : SessionsAuthenticated actions :=
  sessionsAuthenticated_of_permitted (contract actions).1

/-- A row is deleted by `deleteUser` on a session of its own account. -/
def DeletesOwn (past : List Action) (a : Action) : Prop :=
  ∀ turn name, (ThreadPool.turn a (interleaving past)).1 = some turn →
    turn.request = some (.sql (.delete name)) → ∃ uuid u user, turn.call = .invoke uuid (.deleteUser u) ∧
      u.ID = user.ID ∧ name = user.ID ∧ Authenticated past uuid user

/-- However the calls are interleaved, rows are deleted only through sessions of their accounts. -/
theorem deletes_own (actions : List Action) : Throughout DeletesOwn actions := by
  intro past a rest split turn name output request
  exact (contract actions).1 past a rest split turn _ output request

end
end SecureChat
