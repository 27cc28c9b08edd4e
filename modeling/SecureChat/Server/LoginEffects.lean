import SecureChat.Server.Credentials

/-!
# What a login does on its way

A login can end at each of its checks, at the client's callback and at the exposure of the session.
`login_path` gives the requests, the result and the world after it for each of these ends; what a
login may do to the table, to the client and to the adapter is read off them. The session gets the
name that the client logs in with and the key that is fetched; both are the registered ones unless a
text lost bytes in the database.
-/

namespace SecureChat
open Library Body

def Request.exposes : Request → Bool
  | .exposeObject _ => true
  | _ => false

section
variable [Storage]

def effects (op : Operation) (w : World) : List Request :=
  Program.made op.answer (op.body w) w

section requests
variable (op : Operation) (w : World)

theorem made_orThrow (r : Request) {ε α : Type} (wrap : ε → Fault) (read : r.Reply → Except ε α) :
    Program.made op.answer (do orThrow wrap (read (← ask r))) w = [r] := by
  simp only [ask, Program.made_bind, Program.made_ask, Program.exec_ask]
  cases read (op.answer r w).1 <;> rfl

@[simp] theorem made_createUsers : Program.made op.answer createUsers w = [.sql .createTable] := rfl

@[simp] theorem made_selectUser (id : StdString) :
    Program.made op.answer (selectUser id) w = [.sql (.select id)] :=
  made_orThrow op w (.sql (.select id)) .soci fun answer => answer

@[simp] theorem made_callbackForID (callbackID : Identity) :
    Program.made op.answer (callbackForID callbackID) w = [.callbackForID callbackID] :=
  made_orThrow op w (.callbackForID callbackID) (fun e => e) fun answer => answer

@[simp] theorem made_echo (callbackID : Identity) (text : StdString) :
    Program.made op.answer (echo callbackID text) w = [.echo callbackID text] :=
  made_orThrow op w (.echo callbackID text) (fun e => e) fun answer => answer

@[simp] theorem made_exposeObject (session : SessionImpl) :
    Program.made op.answer (exposeObject session) w = [.exposeObject session] :=
  made_orThrow op w (.exposeObject session) (fun e => e) fun answer => answer

@[simp] theorem made_info (args : List StdString) : Program.made op.answer (info args) w = [.info args] := rfl

end requests

/-! ## The ends of a login -/

/-- The checks of a login, made on the row as it is fetched. -/
structure Row.Passes (row : Row) (u : User) (pw : StdString) : Prop where
  id : row.id = account u.ID
  password : pw = asText row.pw
  publicKey : u.publicKey = [] ∨ u.publicKey.toStdString = asText row.pubkey

/-- The session of a login that was checked against the row. -/
def Row.sessionOf (row : Row) (u : User) : SessionImpl :=
  ⟨true, ⟨key u.ID, (asText row.pubkey).toByteSeq⟩⟩

section
variable (u : User) (pw : StdString) (callbackID : Identity) (con : Connection) (uuid : StdString) (w : World)

def loginLookup : List Request := [.sql .createTable, .sql (.select (key u.ID))]

inductive LoginPath : List Request → Result → World → Prop
  | unknownID (absent : w.users.find (account u.ID) = none) :
      LoginPath (loginLookup u) (.error (AuthenticationException (lit "unknown ID"))) w.opened
  | invalidPassword (stored : Row) (found : w.users.find (account u.ID) = some stored) (wrong : pw ≠ asText stored.pw) :
      LoginPath (loginLookup u) (.error (AuthenticationException (lit "invalid password"))) w.opened
  | otherKey (stored : Row) (found : w.users.find (account u.ID) = some stored) (password : pw = asText stored.pw)
      (fails : ¬ stored.Passes u pw) :
      LoginPath (loginLookup u) (.error (AuthenticationException (lit "public key can't change"))) w.opened
  | notReached (stored : Row) (found : w.users.find (account u.ID) = some stored) (passes : stored.Passes u pw)
      (failed : ¬ con.EchoesCorrectly callbackID) (e : Fault) :
      LoginPath (loginLookup u ++ [.callbackForID callbackID]) (.error e) w.opened
  | notEchoed (stored : Row) (found : w.users.find (account u.ID) = some stored) (passes : stored.Passes u pw)
      (failed : ¬ con.EchoesCorrectly callbackID) (e : Fault) :
      LoginPath (loginLookup u ++ [.callbackForID callbackID, .echo callbackID (lit "42")]) (.error e) w.opened
  | nameTaken (stored : Row) (found : w.users.find (account u.ID) = some stored) (passes : stored.Passes u pw)
      (echoes : con.EchoesCorrectly callbackID) (taken : (w.servants uuid).isSome) :
      LoginPath (loginLookup u ++ [.callbackForID callbackID, .echo callbackID (lit "42"),
          .info [lit "Logging in ", u.ID], .exposeObject (stored.sessionOf u)])
        (.error (.ice .alreadyRegistered)) w.opened
  | exposed (stored : Row) (found : w.users.find (account u.ID) = some stored) (passes : stored.Passes u pw)
      (echoes : con.EchoesCorrectly callbackID) (free : w.servants uuid = none) :
      LoginPath (loginLookup u ++ [.callbackForID callbackID, .echo callbackID (lit "42"),
          .info [lit "Logging in ", u.ID], .exposeObject (stored.sessionOf u)])
        (.ok (.proxy uuid)) (w.opened.setServant uuid (some (stored.sessionOf u)))

theorem effects_login : effects (.login u pw callbackID con uuid) w =
    Program.made (Operation.login u pw callbackID con uuid).answer
      (AuthenticationImpl.login u pw callbackID) w := by
  rw [effects, Operation.body, bind_pure_comp, Program.made_map]

theorem login_path : LoginPath u pw callbackID con uuid w (effects (.login u pw callbackID con uuid) w)
    (perform (.login u pw callbackID con uuid) w).1 (perform (.login u pw callbackID con uuid) w).2 := by
  simp only [perform_login, effects_login, login_eq, Program.made_bind, made_createUsers, exec_createUsers,
    made_selectUser, exec_selectUser, Users.fetch_key]
  cases found : w.users.find (account u.ID) with
  | none => exact .unknownID found
  | some stored =>
      have id : stored.id = account u.ID := by simpa using List.find?_some found
      by_cases password : pw ≠ asText stored.pw
      · simpa [loginLookup, loginCheck, password] using LoginPath.invalidPassword stored found password
      by_cases pubkey : ¬u.publicKey = [] ∧ ¬u.publicKey.toStdString = asText stored.pubkey
      · have fails : ¬ stored.Passes u pw := fun passes => by grind [passes.publicKey]
        simpa [loginLookup, loginCheck, password, pubkey] using
          LoginPath.otherKey stored found (not_not.mp password) fails
      have passes : stored.Passes u pw := ⟨id, not_not.mp password, by grind⟩
      cases cast : con.checkedCast callbackID with
      | error e =>
          have failed : ¬ con.EchoesCorrectly callbackID := by simp [Connection.EchoesCorrectly, cast]
          simpa [loginLookup, loginCheck, password, pubkey, Operation.con, cast] using
            LoginPath.notReached stored found passes failed e
      | ok _ =>
          cases echoed : con.echo callbackID (lit "42") with
          | error e =>
              have failed : ¬ con.EchoesCorrectly callbackID := by simp [Connection.EchoesCorrectly, echoed]
              simpa [loginLookup, loginCheck, password, pubkey, Operation.con, cast, echoed] using
                LoginPath.notEchoed stored found passes failed e
          | ok text =>
              by_cases good : text = lit "42"
              · have echoes : con.EchoesCorrectly callbackID := ⟨cast, by rw [echoed, good]⟩
                have session : ⟨true, ⟨key u.ID, (asText stored.pubkey).toByteSeq⟩⟩ = stored.sessionOf u := rfl
                cases taken : w.servants uuid with
                | none =>
                    simpa [loginLookup, loginCheck, password, pubkey, Operation.con, cast, echoed, good,
                        session] using
                      LoginPath.exposed stored found passes echoes taken
                | some other =>
                    simpa [loginLookup, loginCheck, password, pubkey, Operation.con, cast, echoed, good,
                        session] using
                      LoginPath.nameTaken stored found passes echoes (by simp [taken])
              · have failed : ¬ con.EchoesCorrectly callbackID := by
                  simp [Connection.EchoesCorrectly, echoed, good]
                simpa [loginLookup, loginCheck, password, pubkey, Operation.con, cast, echoed, good] using
                  LoginPath.notEchoed stored found passes failed
                    (AuthenticationException (lit "echo not working"))

variable {u pw callbackID con uuid w} {requests : List Request} {result : Result} {after : World}

namespace LoginPath

theorem users (path : LoginPath u pw callbackID con uuid w requests result after) :
    after.users = w.opened.users := by
  cases path <;> rfl

theorem statements (path : LoginPath u pw callbackID con uuid w requests result after) {s : Statement}
    (executed : Request.sql s ∈ requests) (users : Users) : (s.execute users).2.rows = users.rows := by
  have either : s = .createTable ∨ s = .select (key u.ID) := by
    cases path <;> simpa [loginLookup] using executed
  rcases either with rfl | rfl <;> cases users <;> rfl

theorem contacts (path : LoginPath u pw callbackID con uuid w requests result after) :
    requests.filter Request.contacts <+: [.callbackForID callbackID, .echo callbackID (lit "42")] := by
  cases path <;> simp [loginLookup, List.filter, Request.contacts]

theorem checked (path : LoginPath u pw callbackID con uuid w requests result after)
    {first rest : List Request} {r : Request} (split : requests = first ++ r :: rest)
    (contacts : r.contacts = true) :
    Request.sql (.select (key u.ID)) ∈ first ∧
      ∃ row, w.users.find (account u.ID) = some row ∧ row.Passes u pw := by
  have quiet : r ∉ loginLookup u := by
    intro member
    simp only [loginLookup, List.mem_cons, List.not_mem_nil, or_false] at member
    rcases member with rfl | rfl <;> contradiction
  have after_lookup {tail : List Request} (same : loginLookup u ++ tail = first ++ r :: rest) :
      Request.sql (.select (key u.ID)) ∈ first := by
    rcases List.append_eq_append_iff.mp same with ⟨more, rfl, _⟩ | ⟨more, looked, shifted⟩
    · simp [loginLookup]
    · cases more with
      | nil => simp [← looked.trans (List.append_nil first), loginLookup]
      | cons x more =>
          rw [List.cons_append, List.cons.injEq] at shifted
          exact absurd (by simp [looked, shifted.1]) quiet
  cases path with
  | unknownID | invalidPassword | otherKey => exact absurd (by simp [split]) quiet
  | notReached stored found passes | notEchoed stored found passes | nameTaken stored found passes
  | exposed stored found passes => exact ⟨after_lookup split, stored, found, passes⟩

theorem exposes (path : LoginPath u pw callbackID con uuid w requests result after) {row : Row}
    (found : w.users.find (account u.ID) = some row) (passes : row.Passes u pw)
    (echoes : con.EchoesCorrectly callbackID) :
    requests = loginLookup u ++ [.callbackForID callbackID, .echo callbackID (lit "42"),
      .info [lit "Logging in ", u.ID], .exposeObject (row.sessionOf u)] ∧
    (w.servants uuid = none → result = .ok (.proxy uuid) ∧
      after = w.opened.setServant uuid (some (row.sessionOf u))) := by
  have only {stored : Row} (same : w.users.find (account u.ID) = some stored) : row = stored := by
    rwa [found, Option.some.injEq] at same
  cases path with
  | unknownID absent => simp [found] at absent
  | invalidPassword stored same wrong => exact absurd (only same ▸ passes.password) wrong
  | otherKey stored same _ fails => exact absurd (only same ▸ passes) fails
  | notReached _ _ _ failed | notEchoed _ _ _ failed => exact absurd echoes failed
  | nameTaken stored same _ _ taken => exact ⟨by rw [only same], fun free => by simp [free] at taken⟩
  | exposed stored same => exact ⟨by rw [only same], fun _ => by rw [only same]; exact ⟨rfl, rfl⟩⟩

theorem refused (path : LoginPath u pw callbackID con uuid w requests result after)
    (failed : ∀ row, w.users.find (account u.ID) = some row → row.Passes u pw → ¬ con.EchoesCorrectly callbackID) :
    (∃ e, result = .error e) ∧ requests.filter Request.exposes = [] ∧ after.servants = w.servants := by
  cases path with
  | nameTaken stored found passes echoes | exposed stored found passes echoes =>
      exact absurd echoes (failed stored found passes)
  | _ => exact ⟨⟨_, rfl⟩, by simp [loginLookup, Request.exposes], rfl⟩

end LoginPath

variable (callbackID con uuid) in
theorem invalid_password {stored : Row} (found : w.users.find (account u.ID) = some stored)
    (wrong : pw ≠ asText stored.pw) :
    effects (.login u pw callbackID con uuid) w = loginLookup u ∧
    perform (.login u pw callbackID con uuid) w =
      (.error (AuthenticationException (lit "invalid password")), w.opened) := by
  have path := login_path u pw callbackID con uuid w
  generalize effects (.login u pw callbackID con uuid) w = requests at path ⊢
  generalize perform (.login u pw callbackID con uuid) w = done at path ⊢
  rcases done with ⟨result, after⟩
  have other {row : Row} (same : w.users.find (account u.ID) = some row) (passes : row.Passes u pw) : False := by
    rw [found, Option.some.injEq] at same
    exact wrong (same ▸ passes.password)
  cases path with
  | invalidPassword => exact ⟨rfl, rfl⟩
  | unknownID absent => simp [found] at absent
  | otherKey _ same password =>
      rw [found, Option.some.injEq] at same
      exact absurd (same ▸ password) wrong
  | notReached _ same passes | notEchoed _ same passes | nameTaken _ same passes
  | exposed _ same passes => exact (other same passes).elim

end

/-! ## What every login keeps to -/

/-- The table as a login with a wrong password sees it. -/
def Users.withoutKeys (users : Users) : List (StdString × StdString) :=
  users.rows.map fun row => (row.id, row.pw)

structure LoginGuarded (session : Row → SessionImpl) (u : User) (pw : StdString) (callbackID : Identity)
    (con : Connection) (uuid : StdString) (w : World) : Prop where
  rows : (perform (.login u pw callbackID con uuid) w).2.users.rows = w.users.rows
  statements : ∀ s, .sql s ∈ effects (.login u pw callbackID con uuid) w →
    ∀ users, (s.execute users).2.rows = users.rows
  contacts : (effects (.login u pw callbackID con uuid) w).filter Request.contacts <+:
    [.callbackForID callbackID, .echo callbackID (lit "42")]
  checked : ∀ first r rest, effects (.login u pw callbackID con uuid) w = first ++ r :: rest →
    r.contacts = true → .sql (.select (key u.ID)) ∈ first ∧ ∃ row ∈ w.users.rows, row.Passes u pw
  exposed : ∀ row ∈ w.users.rows, row.Passes u pw → con.EchoesCorrectly callbackID →
    (effects (.login u pw callbackID con uuid) w).filter Request.exposes = [.exposeObject (session row)] ∧
    (∃ first rest, effects (.login u pw callbackID con uuid) w = first ++ .exposeObject (session row) :: rest ∧
      .echo callbackID (lit "42") ∈ first) ∧
    (w.servants uuid = none → perform (.login u pw callbackID con uuid) w =
      (.ok (.proxy uuid), w.opened.setServant uuid (some (session row))))
  refused : ¬ ((∃ row ∈ w.users.rows, row.Passes u pw) ∧ con.EchoesCorrectly callbackID) →
    (∃ e, (perform (.login u pw callbackID con uuid) w).1 = .error e) ∧
    (effects (.login u pw callbackID con uuid) w).filter Request.exposes = [] ∧
    (perform (.login u pw callbackID con uuid) w).2.servants = w.servants
  blind : ∀ row ∈ w.users.rows, row.id = account u.ID → pw ≠ asText row.pw →
    ∀ users : Users, users.withoutKeys = w.users.withoutKeys →
    (perform (.login u pw callbackID con uuid) (w.setUsers users)).1 =
      (perform (.login u pw callbackID con uuid) w).1 ∧
    effects (.login u pw callbackID con uuid) (w.setUsers users) =
      effects (.login u pw callbackID con uuid) w ∧
    (perform (.login u pw callbackID con uuid) (w.setUsers users)).2.servants =
      (perform (.login u pw callbackID con uuid) w).2.servants

omit [Storage] in
theorem Users.find_withoutKeys (users : Users) (id : StdString) :
    (users.find id).map (fun row => (row.id, row.pw)) = users.withoutKeys.find? (·.1 = id) := by
  rw [withoutKeys, List.find?_map]
  rfl

omit [Storage] in
theorem Users.find_of_withoutKeys {users others : Users} (same : others.withoutKeys = users.withoutKeys)
    {id : StdString} {row : Row} (found : users.find id = some row) :
    ∃ other, others.find id = some other ∧ other.pw = row.pw := by
  have seen := Users.find_withoutKeys others id
  rw [same, ← Users.find_withoutKeys, found, Option.map_some] at seen
  obtain ⟨other, found', alike⟩ := Option.map_eq_some_iff.mp seen
  exact ⟨other, found', (Prod.mk.inj alike).2⟩

section
variable {w : World} (unique : w.users.UniqueIds) (u : User) (pw : StdString) (callbackID : Identity)
  (con : Connection) (uuid : StdString)
include unique

theorem login_guarded : LoginGuarded (Row.sessionOf · u) u pw callbackID con uuid w := by
  have path := login_path u pw callbackID con uuid w
  have find_iff (row : Row) : w.users.find (account u.ID) = some row ↔
      row ∈ w.users.rows ∧ row.id = account u.ID := Users.find_eq_some unique
  constructor
  · rw [path.users]
    rfl
  · intro s executed
    exact path.statements executed
  · exact path.contacts
  · intro first r rest split contacts
    obtain ⟨looked, row, found, passes⟩ := path.checked split contacts
    exact ⟨looked, row, ((find_iff row).mp found).1, passes⟩
  · intro row stored passes echoes
    have found := (find_iff row).mpr ⟨stored, passes.id⟩
    obtain ⟨made, issued⟩ := path.exposes found passes echoes
    refine ⟨by simp [made, loginLookup, List.filter, Request.exposes], ?_, ?_⟩
    · refine ⟨loginLookup u ++ [.callbackForID callbackID, .echo callbackID (lit "42"),
        .info [lit "Logging in ", u.ID]], [], ?_, by simp⟩
      rw [made]
      simp
    · intro free
      exact Prod.ext (issued free).1 (issued free).2
  · intro failed
    apply path.refused
    intro row found passes echoes
    exact failed ⟨⟨row, ((find_iff row).mp found).1, passes⟩, echoes⟩
  · intro row stored id wrong users same
    have found := (find_iff row).mpr ⟨stored, id⟩
    obtain ⟨other, found', password⟩ := Users.find_of_withoutKeys same found
    obtain ⟨made, done⟩ := invalid_password callbackID con uuid found wrong
    obtain ⟨made', done'⟩ :=
      invalid_password (w := w.setUsers users) callbackID con uuid found' (password ▸ wrong)
    rw [made, made', done, done']
    exact ⟨rfl, rfl, rfl⟩

/-! ## The registered name and key -/

/-- A session for the registered name with the registered key. -/
def Row.session (row : Row) : SessionImpl :=
  ⟨true, ⟨row.id, row.pubkey.toByteSeq⟩⟩

omit [Storage] unique in
theorem LoginGuarded.congr [Storage] {session other : Row → SessionImpl}
    (guarded : LoginGuarded session u pw callbackID con uuid w)
    (same : ∀ row ∈ w.users.rows, row.Passes u pw → con.EchoesCorrectly callbackID → session row = other row) :
    LoginGuarded other u pw callbackID con uuid w :=
  { guarded with
    exposed := fun row stored passes echoes =>
      same row stored passes echoes ▸ guarded.exposed row stored passes echoes }

/-- `registered` gives the row that each row of the table was registered as: the row itself, or one
of which it is what the database kept. -/
theorem login_guarded_iff (registered : Row → Row)
    (kept : ∀ row ∈ w.users.rows, row = registered row ∨ row = (registered row).asTexts) :
    LoginGuarded (fun row => (registered row).session) u pw callbackID con uuid w ↔
    ∀ row ∈ w.users.rows, row.Passes u pw → con.EchoesCorrectly callbackID →
      (registered row).id = key u.ID ∧ asText (registered row).pubkey = (registered row).pubkey := by
  have guarded := login_guarded unique u pw callbackID con uuid
  have fetched (row : Row) (stored : row ∈ w.users.rows) :
      asText row.pubkey = asText (registered row).pubkey := by
    rcases kept row stored with same | same
    · exact congrArg (fun row => asText row.pubkey) same
    · simpa using congrArg (fun row => asText row.pubkey) same
  constructor
  · intro claim row stored passes echoes
    have made := (guarded.exposed row stored passes echoes).1
    rw [(claim.exposed row stored passes echoes).1] at made
    simp only [Row.session, Row.sessionOf, fetched row stored, List.cons.injEq, Request.exposeObject.injEq,
      SessionImpl.mk.injEq, User.mk.injEq, true_and, and_true] at made
    exact ⟨made.1, (StdString.toByteSeq_injective made.2).symm⟩
  · intro condition
    refine guarded.congr u pw callbackID con uuid fun row stored passes echoes => ?_
    obtain ⟨name, whole⟩ := condition row stored passes echoes
    simp [Row.session, Row.sessionOf, fetched row stored, name, whole]

end
end

def bob : User := ⟨lit "bob", []⟩

/-- An ID that the database does not tell from `bob`. -/
def bobX : User := ⟨lit "bob" ++ 0 :: lit "x", []⟩

theorem login_guarded_iff_bob :
    LoginGuarded Row.session bobX (lit "pw") ⟨lit "callback", []⟩ .echoing (lit "s")
      (world [.registerUser bob (lit "pw")]) ↔
    ∀ row ∈ (world [.registerUser bob (lit "pw")]).users.rows, row.Passes bobX (lit "pw") →
      Connection.echoing.EchoesCorrectly ⟨lit "callback", []⟩ →
      row.id = key bobX.ID ∧ asText row.pubkey = row.pubkey :=
  login_guarded_iff (uniqueIds _) _ _ _ _ _ (fun row => row) fun _ _ => .inl rfl

theorem login_exposes_other_name :
    ¬ ∀ (w : World), w.users.UniqueIds → ∀ (u : User) (pw : StdString) (callbackID : Identity)
      (con : Connection) (uuid : StdString), LoginGuarded Row.session u pw callbackID con uuid w := by
  intro claim
  have unique := uniqueIds [.registerUser bob (lit "pw")]
  have stored : ⟨lit "bob", lit "pw", []⟩ ∈ (world [.registerUser bob (lit "pw")]).users.rows := by decide
  have passes : Row.Passes ⟨lit "bob", lit "pw", []⟩ bobX (lit "pw") := ⟨by decide, by decide, .inl rfl⟩
  have echoes : Connection.echoing.EchoesCorrectly ⟨lit "callback", []⟩ := ⟨rfl, rfl⟩
  have made :=
    ((login_guarded unique bobX (lit "pw") _ .echoing (lit "s")).exposed _ stored passes echoes).1
  rw [((claim _ unique bobX (lit "pw") _ .echoing (lit "s")).exposed _ stored passes echoes).1] at made
  simp only [List.cons.injEq, Request.exposeObject.injEq, and_true] at made
  revert made
  decide

end SecureChat
