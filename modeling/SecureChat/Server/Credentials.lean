import SecureChat.Server.Ownership

/-!
# Who can log in

A login is decided by the registration in force for the account of its ID: the bare name and every
full form of it reach the same account, and the result depends on nothing else that happened.
-/

namespace SecureChat
open Library

section
variable [Storage]

/-! ## Runs with fresh UUIDs -/

def Operation.exposes : Operation → Option StdString
  | .login _ _ _ _ uuid => some uuid
  | _ => none

/-- A run in which the generated UUIDs never repeat. -/
structure Run where
  ops : List Operation
  fresh : (ops.filterMap Operation.exposes).Nodup

theorem exposed_of_servant (ops : List Operation) (uuid : StdString) :
    ((world ops).servants uuid).isSome → uuid ∈ ops.filterMap Operation.exposes := by
  induction ops using List.reverseRecOn with
  | nil => simp [world, final, World.empty]
  | append_singleton ops op ih =>
      rw [world, final_concat, List.filterMap_append, List.mem_append]
      rcases servants_step op (world ops) uuid with same | ⟨u, pw, callbackID, con, stored, rfl, _⟩ |
          ⟨session, _, called, _⟩
      · rw [same]
        exact fun issued => .inl (ih issued)
      · exact fun _ => .inr (by simp [Operation.exposes])
      · exact fun _ => .inl (ih (by simp [called]))

theorem Run.free (run : Run) {before post : List Operation} {u : User} {pw : StdString}
    {callbackID : Identity} {con : Connection} {uuid : StdString}
    (split : run.ops = before ++ .login u pw callbackID con uuid :: post) :
    (world before).servants uuid = none := by
  have fresh := run.fresh
  rw [split, List.filterMap_append, List.nodup_append] at fresh
  cases issued : (world before).servants uuid with
  | none => rfl
  | some session =>
      have earlier := exposed_of_servant before uuid (by simp [issued])
      exact absurd rfl (fresh.2.2 uuid earlier uuid (by simp [Operation.exposes]))

/-! ## Logins against the history -/

def Connection.EchoesCorrectly (con : Connection) (callbackID : Identity) : Prop :=
  con.checkedCast callbackID = .ok () ∧ con.echo callbackID (lit "42") = .ok (lit "42")

theorem login_decided (run : Run) (before post : List Operation) (u : User) (pw : StdString)
    (callbackID : Identity) (con : Connection) (uuid : StdString)
    (split : run.ops = before ++ .login u pw callbackID con uuid :: post)
    (echoes : con.EchoesCorrectly callbackID) :
    let done := perform (.login u pw callbackID con uuid) (world before)
    ((∃ value, done.1 = .ok value) ↔ ∃ r pw', Registered (past before) (account u.ID) r pw' ∧
      pw = asText pw' ∧ (u.publicKey = [] ∨ u.publicKey.toStdString = asText r.publicKey.toStdString)) ∧
    (∀ value r pw', done.1 = .ok value → Registered (past before) (account u.ID) r pw' →
      value = .proxy uuid ∧ done.2.servants uuid =
        some ⟨true, ⟨key u.ID, (asText r.publicKey.toStdString).toByteSeq⟩⟩) := by
  have free := run.free split
  have stored := fetch_eq_registration before u.ID
  refine ⟨?_, ?_⟩
  · have returned : (∃ value, (perform (.login u pw callbackID con uuid) (world before)).1 = .ok value) ↔
        ∃ row, loginCheck u pw callbackID con ((world before).users.fetch (key u.ID)) false = .ok row := by
      simp only [perform_login, free, Option.isSome_none]
      cases loginCheck u pw callbackID con ((world before).users.fetch (key u.ID)) false <;> simp
    rw [returned]
    simp only [loginCheck_ok, echoes.1, echoes.2, stored, registered_iff, Option.map_eq_some_iff]
    constructor
    · rintro ⟨row, ⟨⟨call, r, pw'⟩, inForce, rfl⟩, password, pubkey, _⟩
      exact ⟨r, pw', ⟨call, inForce⟩, password, pubkey⟩
    · rintro ⟨r, pw', ⟨call, inForce⟩, password, pubkey⟩
      exact ⟨_, ⟨_, inForce, rfl⟩, password, pubkey, by simp⟩
  · intro value r pw' returned registered
    obtain ⟨call, inForce⟩ := (registered_iff ..).mp registered
    obtain ⟨proxy, row, found, issued⟩ := login_issues returned
    rw [stored, inForce, Option.map_some, Option.some.injEq] at found
    subst found
    exact ⟨proxy, issued⟩

/-- Where texts are stored exactly, a login is decided by the ID, password and key registered. -/
theorem login_returns_iff (exact : ∀ s, asText s = s) (run : Run) (before post : List Operation) (u : User)
    (pw : StdString) (callbackID : Identity) (con : Connection) (uuid : StdString)
    (split : run.ops = before ++ .login u pw callbackID con uuid :: post)
    (echoes : con.EchoesCorrectly callbackID) :
    let done := perform (.login u pw callbackID con uuid) (world before)
    ((∃ value, done.1 = .ok value) ↔ ∃ r pw', Registered (past before) (key u.ID) r pw' ∧ pw = pw' ∧
      (u.publicKey = [] ∨ u.publicKey = r.publicKey)) ∧
    (∀ value r pw', done.1 = .ok value → Registered (past before) (key u.ID) r pw' →
      value = .proxy uuid ∧ done.2.servants uuid = some ⟨true, ⟨key u.ID, r.publicKey⟩⟩) := by
  have decided := login_decided run before post u pw callbackID con uuid split echoes
  simpa only [account, exact, StdString.toByteSeq_toStdString, ByteSeq.toStdString_inj] using decided

end

theorem login_returns_iff_alice :
    let _ := Storage.exact
    let done := perform (aliceLogin aliceAtHome (lit "pw") (lit "s")) (world [.registerUser alice (lit "pw")])
    ((∃ value, done.1 = .ok value) ↔
      ∃ r pw', Registered (past [.registerUser alice (lit "pw")]) (key aliceAtHome.ID) r pw' ∧ lit "pw" = pw' ∧
        (aliceAtHome.publicKey = [] ∨ aliceAtHome.publicKey = r.publicKey)) ∧
    (∀ value r pw', done.1 = .ok value →
      Registered (past [.registerUser alice (lit "pw")]) (key aliceAtHome.ID) r pw' →
      value = .proxy (lit "s") ∧ done.2.servants (lit "s") = some ⟨true, ⟨key aliceAtHome.ID, r.publicKey⟩⟩) :=
  @login_returns_iff Storage.exact (fun _ => rfl) ⟨[.registerUser alice (lit "pw"), aliceLogin aliceAtHome (lit "pw") (lit "s")], by decide⟩
    _ [] aliceAtHome _ _ .echoing _ rfl ⟨rfl, rfl⟩

/-! ## Full forms of an ID -/

section
variable [Storage]

theorem key_stored (ops : List Operation) {row : Row} (stored : row ∈ (world ops).users.rows) :
    key row.id = row.id := by
  obtain ⟨r, _, same, _⟩ := stored_row ops stored
  rw [same]
  exact key_of_prefix (Storage.asText_prefix _) (key_key r.user.ID)

theorem login_of_same_key {x y : StdString} (same : key x = key y) (publicKey : ByteSeq) (pw : StdString)
    (callbackID : Identity) (con : Connection) (uuid : StdString) (w : World) :
    perform (.login ⟨x, publicKey⟩ pw callbackID con uuid) w =
      perform (.login ⟨y, publicKey⟩ pw callbackID con uuid) w := by
  rw [perform_login, perform_login]
  simp only [loginCheck, same]

theorem full_form_of_stored_id (ops : List Operation) (row : Row) (stored : row ∈ (world ops).users.rows)
    (server : StdString) (served : server ≠ []) :
    key row.id = row.id ∧
    (key (row.id ++ atSign :: server) = row.id ↔ row.id ≠ [] ∧ atSign ∉ row.id) ∧
    (row.id ≠ [] ∧ atSign ∉ row.id → ∀ publicKey pw callbackID con uuid w,
      perform (.login ⟨row.id ++ atSign :: server, publicKey⟩ pw callbackID con uuid) w =
        perform (.login ⟨row.id, publicKey⟩ pw callbackID con uuid) w) := by
  have normal := key_stored ops stored
  have full := key_append_server row.id served
  exact ⟨normal, full, fun name publicKey pw callbackID con uuid w =>
    login_of_same_key ((full.mpr name).trans normal.symm) publicKey pw callbackID con uuid w⟩

end

theorem full_form_of_stored_id_alice :
    key alice.ID = alice.ID ∧
    (key (alice.ID ++ atSign :: lit "home") = alice.ID ↔ alice.ID ≠ [] ∧ atSign ∉ alice.ID) ∧
    (alice.ID ≠ [] ∧ atSign ∉ alice.ID → ∀ publicKey pw callbackID con uuid w,
      perform (.login ⟨alice.ID ++ atSign :: lit "home", publicKey⟩ pw callbackID con uuid) w =
        perform (.login ⟨alice.ID, publicKey⟩ pw callbackID con uuid) w) :=
  full_form_of_stored_id [.registerUser alice (lit "pw")] ⟨alice.ID, lit "pw", []⟩ (by decide)
    (lit "home") (by decide)

theorem full_form_of_id_with_at_sign :
    ¬ ∀ (ops : List Operation) (row : Row), row ∈ (world ops).users.rows → ∀ server, server ≠ [] →
      key (row.id ++ atSign :: server) = row.id := by
  intro claim
  have same := claim [.registerUser ⟨lit "alice@", []⟩ (lit "pw")] ⟨lit "alice@", lit "pw", []⟩ (by decide)
    (lit "home") (by decide)
  revert same
  decide

end SecureChat
