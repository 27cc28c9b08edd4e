import SecureChat.Server.Contracts

/-!
# How long sessions last

A login exposes a session and nothing takes it back: neither `logout` nor `deleteUser` removes the
servant. So a session that is there stays there for the user it was made for, and a UUID that has
been given to one login is never given to another.
-/

namespace SecureChat
open Library

/-- The same session at another time: it is still for the same user, and it may have been logged
out but not in. -/
def SessionImpl.LastsAs (session later : SessionImpl) : Prop :=
  later.user = session.user ∧ (later.loggedIn = true → session.loggedIn = true)

theorem SessionImpl.LastsAs.refl (session : SessionImpl) : session.LastsAs session := ⟨rfl, id⟩

theorem SessionImpl.LastsAs.trans {session middle later : SessionImpl} (first : session.LastsAs middle)
    (second : middle.LastsAs later) : session.LastsAs later :=
  ⟨second.1.trans first.1, first.2 ∘ second.2⟩

variable [Storage]

/-! ## One turn -/

/-- What one answer does to a session that is there. -/
theorem answer_lasts {op : Operation} {r : Request} {w : World} {uuid : StdString} {session : SessionImpl}
    (cleared : ∀ value, r = .setLoggedIn value → value = false) (servant : w.servants uuid = some session) :
    ∃ later, (op.answer r w).2.servants uuid = some later ∧ session.LastsAs later := by
  by_cases apart : ¬ r.TouchesServant ∨ uuid ≠ op.uuid
  · exact ⟨session, (answer_servants op r w uuid apart).trans servant, .refl session⟩
  obtain ⟨touches, same⟩ := not_or.mp apart
  obtain rfl := not_not.mp same
  cases r with
  | exposeObject other =>
      -- the UUID is taken, so the object adapter throws
      exact ⟨session, by simp [Operation.answer, servant], .refl session⟩
  | setLoggedIn value =>
      obtain rfl := cleared value rfl
      exact ⟨{ session with loggedIn := false }, by simp [Operation.answer, servant], rfl, by simp⟩
  | _ => exact absurd (by simp [Request.TouchesServant]) touches

theorem turn_lasts {past : List Action} (a : Action) {uuid : StdString} {session : SessionImpl}
    (servant : (interleaving past).world.servants uuid = some session) :
    ∃ later, (interleaving (past ++ [a])).world.servants uuid = some later ∧ session.LastsAs later := by
  rw [interleaving_concat]
  cases a with
  | dispatch op => exact ⟨session, servant, .refl session⟩
  | advance i =>
      rcases idle_or_asks i (interleaving past) with idle | ⟨call, r, next, found⟩
      · rw [idle]
        exact ⟨session, servant, .refl session⟩
      · have turned := turn_advance found
        rw [turned]
        refine answer_lasts (fun value same => ?_) servant
        subst same
        exact (contract (past ++ [.advance i])).1 past _ [] rfl _ (.setLoggedIn value) (by rw [turned]) rfl

/-! ## Whole runs -/

theorem run_lasts {past later : List Action} {uuid : StdString} {session : SessionImpl} (grows : past <+: later)
    (servant : (interleaving past).world.servants uuid = some session) :
    ∃ session', (interleaving later).world.servants uuid = some session' ∧ session.LastsAs session' := by
  obtain ⟨rest, rfl⟩ := grows
  induction rest using List.reverseRecOn with
  | nil => exact ⟨session, by simpa using servant, .refl session⟩
  | append_singleton rest a ih =>
      obtain ⟨middle, there, lasts⟩ := ih
      obtain ⟨last, found, on⟩ := turn_lasts a there
      exact ⟨last, List.append_assoc past rest [a] ▸ found, lasts.trans on⟩

/-- The calls that have come in, in their order. -/
def calls (past : List Action) : List Operation := (interleaving past).threads.map Thread.call

theorem calls_turn (past : List Action) (a : Action) : calls past <+: calls (past ++ [a]) := by
  rw [calls.eq_def (past ++ [a]), interleaving_concat]
  cases a with
  | dispatch op => simp [calls, ThreadPool.turn]
  | advance i =>
      rcases idle_or_asks i (interleaving past) with idle | ⟨call, r, next, found⟩
      · exact idle ▸ List.prefix_rfl
      · have called : (calls past)[i]? = some call := by simp [calls, found]
        obtain ⟨inside, same⟩ := List.getElem?_eq_some_iff.mp called
        have kept : (calls past).set i call = calls past := by rw [← same, List.set_getElem_self]
        rw [turn_advance found, List.map_set]
        exact kept ▸ List.prefix_rfl

theorem calls_mono {past later : List Action} (grows : past <+: later) : calls past <+: calls later := by
  obtain ⟨rest, rfl⟩ := grows
  induction rest using List.reverseRecOn with
  | nil => simp
  | append_singleton rest a ih =>
      rw [← List.append_assoc]
      exact ih.trans (calls_turn _ a)

theorem length_calls (past : List Action) : (calls past).length = (interleaving past).threads.length :=
  List.length_map _

theorem calls_dispatch (past : List Action) (op : Operation) : calls (past ++ [.dispatch op]) = calls past ++ [op] := by
  simp [calls, interleaving_concat, ThreadPool.turn]

omit [Storage] in
/-- Of two actions of a run one comes first, unless they are the same. -/
theorem same_or_earlier {α : Type} {log first second : List α} {a b : α} (here : first ++ [a] <+: log)
    (there : second ++ [b] <+: log) :
    (first = second ∧ a = b) ∨ first ++ [a] <+: second ∨ second ++ [b] <+: first := by
  rcases List.prefix_or_prefix_of_prefix here there with before | after
  · rcases List.prefix_concat_iff.mp before with same | earlier
    · obtain ⟨firsts, lasts⟩ := List.append_inj' same rfl
      exact .inl ⟨firsts, by simpa using lasts⟩
    · exact .inr (.inl earlier)
  · rcases List.prefix_concat_iff.mp after with same | earlier
    · obtain ⟨firsts, lasts⟩ := List.append_inj' same rfl
      exact .inl ⟨firsts.symm, by simpa using lasts.symm⟩
    · exact .inr (.inr earlier)

/-- A UUID under which a session has been exposed is not free again. -/
theorem Exposed.exclusive {actions : List Action} {i j : Nat} {uuid id id' : StdString}
    (first : Exposed actions i uuid id) (second : Exposed actions j uuid id') : i = j := by
  obtain ⟨before, session, within, free, exposed, _⟩ := first
  obtain ⟨before', session', within', free', exposed', _⟩ := second
  rcases same_or_earlier within within' with ⟨_, same⟩ | sooner | later
  · simpa using same
  · obtain ⟨kept, found, _⟩ := run_lasts sooner exposed
    simp [free'] at found
  · obtain ⟨kept, found, _⟩ := run_lasts later exposed'
    simp [free] at found

/-- The thread of a call that has come in still handles it. -/
theorem dispatched {past actions : List Action} {op : Operation} (within : past ++ [.dispatch op] <+: actions) :
    ∃ rest, (interleaving actions).threads[(interleaving past).threads.length]? = some ⟨op, rest⟩ := by
  have kept := calls_mono within
  rw [calls_dispatch] at kept
  have called : (calls actions)[(calls past).length]? = some op := by
    obtain ⟨rest, equal⟩ := kept
    rw [← equal]
    simp
  rw [length_calls, calls, List.getElem?_map] at called
  obtain ⟨⟨call, rest⟩, found, rfl⟩ := Option.map_eq_some_iff.mp called
  exact ⟨rest, found⟩

/-- No two calls have come in as the same thread. -/
theorem dispatch_position {actions first second : List Action} {op op' : Operation}
    (here : first ++ [.dispatch op] <+: actions) (there : second ++ [.dispatch op'] <+: actions)
    (same : (interleaving first).threads.length = (interleaving second).threads.length) : first = second := by
  have later {earlier past : List Action} {call : Operation} (sooner : earlier ++ [.dispatch call] <+: past) :
      (interleaving earlier).threads.length < (interleaving past).threads.length := by
    have longer := (calls_mono sooner).length_le
    simp only [calls_dispatch, List.length_append, List.length_singleton, length_calls] at longer
    omega
  rcases same_or_earlier here there with ⟨equal, _⟩ | sooner | after
  · exact equal
  · exact absurd same (Nat.ne_of_lt (later sooner))
  · exact absurd same (Nat.ne_of_gt (later after))

/-- What holds of the sessions of a run. -/
structure SessionsLast (actions : List Action) : Prop where
  /-- A session that has been there is still there. -/
  lasting : ∀ past uuid session, past <+: actions → (interleaving past).world.servants uuid = some session →
    ∃ later, (interleaving actions).world.servants uuid = some later ∧ session.LastsAs later
  /-- A session that a call has returned is there for the account which that call logged in. -/
  returned : ∀ t ∈ (interleaving actions).threads, ∀ uuid, t.rest.value? = some (.ok (.proxy uuid)) →
    ∃ u pw callbackID con session, t.call = .login u pw callbackID con uuid ∧
      (interleaving actions).world.servants uuid = some session ∧ session.user.ID = key u.ID
  /-- Two calls never return the same session. -/
  distinct : ∀ (i j : Nat) (t t' : Thread) (uuid : StdString), (interleaving actions).threads[i]? = some t →
    (interleaving actions).threads[j]? = some t' → t.rest.value? = some (.ok (.proxy uuid)) →
    t'.rest.value? = some (.ok (.proxy uuid)) → i = j
  /-- A call on a session that is there when it comes in reaches the session. -/
  reached : ∀ past uuid m session, past ++ [.dispatch (.invoke uuid m)] <+: actions →
    (interleaving past).world.servants uuid = some session →
    ∃ rest, (interleaving actions).threads[(interleaving past).threads.length]? = some ⟨.invoke uuid m, rest⟩ ∧
      rest.value? ≠ some (.error (.ice .objectNotExist))

omit [Storage] in
theorem login_of_proxy {op : Operation} {uuid : StdString} (conforms : op.Conforms (.ok (.proxy uuid))) :
    ∃ u pw callbackID con, op = .login u pw callbackID con uuid := by
  cases op with
  | login u pw callbackID con uuid' =>
      obtain rfl := Value.proxy.inj conforms
      exact ⟨u, pw, callbackID, con, rfl⟩
  | registerUser u pw => exact Value.noConfusion conforms
  | invoke uuid' m => cases m <;> simp [Operation.Conforms, Operation.returns, SessionMethod.returns] at conforms

/-- What a call that has returned a session has done. -/
theorem exposed_of_proxy {actions : List Action} {i : Nat} {t : Thread} {uuid : StdString}
    (found : (interleaving actions).threads[i]? = some t) (ended : t.rest.value? = some (.ok (.proxy uuid))) :
    ∃ u pw callbackID con, t.call = .login u pw callbackID con uuid ∧ Exposed actions i uuid (key u.ID) := by
  have completes := (contract actions).2 i t found _ ended
  obtain ⟨u, pw, callbackID, con, same⟩ := login_of_proxy completes.conforms
  exact ⟨u, pw, callbackID, con, same, completes.exposed u pw callbackID con uuid same rfl⟩

/-- However the calls are interleaved, a session lasts: once it is there it is there for the same
user for ever, whoever logs out or deletes the account. A login that has returned has a session of
its own account that no other login is given, and no call on it is turned away. -/
theorem sessions_last (actions : List Action) : SessionsLast actions where
  lasting past uuid session within servant := run_lasts within servant
  returned t member uuid ended := by
    obtain ⟨i, found⟩ := List.mem_iff_getElem?.mp member
    obtain ⟨u, pw, callbackID, con, same, exposed⟩ := exposed_of_proxy found ended
    obtain ⟨before, session, within, _, servant, own⟩ := exposed
    obtain ⟨later, there, lasts⟩ := run_lasts within servant
    exact ⟨u, pw, callbackID, con, later, same, there, by rw [lasts.1, own]⟩
  distinct i j t t' uuid found found' ended ended' := by
    obtain ⟨_, _, _, _, _, first⟩ := exposed_of_proxy found ended
    obtain ⟨_, _, _, _, _, second⟩ := exposed_of_proxy found' ended'
    exact first.exclusive second
  reached past uuid m session within servant := by
    obtain ⟨rest, found⟩ := dispatched within
    refine ⟨rest, found, fun ended => ?_⟩
    obtain ⟨before, op, within', position, absent⟩ := ((contract actions).2 _ _ found _ ended).astray uuid m rfl rfl
    rw [dispatch_position within' within position, servant] at absent
    contradiction

end SecureChat
