import SecureChat.Server.Serializability

/-!
# Threads that are interrupted at every request

`ThreadPool.act` lets a thread go on to its next statement. Here a thread can also be interrupted
before and after it calls the client back, exposes a session, clears its `loggedIn` flag or logs a
line. As long as nobody guesses a UUID, no other call can tell: a schedule of requests ends like the
schedule of its statements, in which each call does the rest as soon as its last statement is done.
-/

namespace SecureChat
open Library Body

structure Turn where
  thread : Nat
  call : Operation
  request : Option Request
  returned : Option Result

def Turn.isStatement (turn : Turn) : Bool :=
  turn.request.all Request.isStatement

section
variable [Storage]

/-- Dispatches a call, or answers one request of a thread. -/
def ThreadPool.turn : Action → ThreadPool → Option Turn × ThreadPool
  | .dispatch op, pool =>
      (some ⟨pool.threads.length, op, none, (op.body pool.world).run.value?⟩,
        ⟨pool.world, pool.threads ++ [⟨op, (op.body pool.world).run⟩]⟩)
  | .advance i, pool =>
      match pool.threads[i]? with
      | some ⟨call, .request r next⟩ =>
          let answered := call.answer r pool.world
          (some ⟨i, call, some r, (next answered.1).value?⟩,
            ⟨answered.2, pool.threads.set i ⟨call, next answered.1⟩⟩)
      | _ => (none, pool)

abbrev interleaving (actions : List Action) : ThreadPool := final ThreadPool.turn .start actions

abbrev turns (actions : List Action) : List (Moment ThreadPool Action (Option Turn)) :=
  history ThreadPool.turn .start actions

/-- The schedule without the turns that execute no statement. -/
def statements (actions : List Action) : List Action :=
  (turns actions).filterMap fun m => m.output.bind fun turn => if turn.isStatement then some m.action else none

end

/-! ## UUIDs -/

def Operation.issued : Operation → Option StdString
  | .login _ _ _ _ uuid => some uuid
  | _ => none

def Operation.named : Operation → Option StdString
  | .registerUser _ _ => none
  | .login _ _ _ _ uuid => some uuid
  | .invoke uuid _ => some uuid

/-- A login is given a UUID that no call has named, and a session is called only after the login
that issued its UUID has returned. -/
def Unguessed (m : Moment ThreadPool Action (Option Turn)) : Prop :=
  match m.action with
  | .dispatch (.login _ _ _ _ uuid) => ∀ t ∈ m.before.threads, t.call.named ≠ some uuid
  | .dispatch (.invoke uuid _) =>
      ∀ t ∈ m.before.threads, t.call.issued = some uuid → t.rest.value?.isSome
  | _ => True

instance (m : Moment ThreadPool Action (Option Turn)) : Decidable (Unguessed m) :=
  match m with
  | ⟨_, .dispatch (.registerUser _ _), _, _⟩ => .isTrue trivial
  | ⟨before, .dispatch (.login _ _ _ _ uuid), _, _⟩ =>
      inferInstanceAs (Decidable (∀ t ∈ before.threads, t.call.named ≠ some uuid))
  | ⟨before, .dispatch (.invoke uuid _), _, _⟩ =>
      inferInstanceAs (Decidable (∀ t ∈ before.threads, t.call.issued = some uuid → t.rest.value?.isSome))
  | ⟨_, .advance _, _, _⟩ => .isTrue trivial

theorem named_of_issued {op : Operation} {uuid : StdString} (issued : op.issued = some uuid) :
    op.named = some uuid := by
  cases op with
  | login u pw callbackID con uuid => exact issued
  | _ => contradiction

theorem uuid_of_issued {op : Operation} {uuid : StdString} (issued : op.issued = some uuid) :
    op.uuid = uuid := by
  cases op with
  | login u pw callbackID con uuid => exact Option.some.inj issued
  | _ => contradiction

/-! ## Requests that touch a session -/

def Request.TouchesServant : Request → Prop
  | .exposeObject _ => True
  | .setLoggedIn _ => True
  | _ => False

section
variable [Storage]

theorem answer_servants (op : Operation) (r : Request) (w : World) (uuid : StdString)
    (apart : ¬ r.TouchesServant ∨ uuid ≠ op.uuid) : (op.answer r w).2.servants uuid = w.servants uuid := by
  cases r with
  | exposeObject session =>
      have other : uuid ≠ op.uuid := by simpa [Request.TouchesServant] using apart
      simp only [Operation.answer]
      split
      · rfl
      · simp [other]
  | setLoggedIn value =>
      have other : uuid ≠ op.uuid := by simpa [Request.TouchesServant] using apart
      simp [Operation.answer, other]
  | _ => rfl

/-- What a call answers to a request other than a statement depends on nothing but its own servant. -/
theorem answer_silent (op : Operation) (r : Request) {w t : World} (silent : r.isStatement = false)
    (same : w.servants op.uuid = t.servants op.uuid) :
    (op.answer r w).1 = (op.answer r t).1 ∧
      (op.answer r w).2.servants op.uuid = (op.answer r t).2.servants op.uuid := by
  cases r with
  | sql s => simp [Request.statement] at silent
  | exposeObject session =>
      simp only [Operation.answer, same]
      split <;> exact ⟨rfl, by simp [same]⟩
  | setLoggedIn value => exact ⟨rfl, by simp [Operation.answer, same]⟩
  | _ => exact ⟨rfl, same⟩

theorem answer_untouched (op : Operation) (r : Request) (w t : World) (silent : r.isStatement = false)
    (untouched : ¬ r.TouchesServant) : (op.answer r w).1 = (op.answer r t).1 := by
  cases r with
  | sql s => simp [Request.statement] at silent
  | exposeObject session => simp [Request.TouchesServant] at untouched
  | _ => rfl

end

/-! ## The kinds of threads -/

/-- A login may expose its session, a logout clears its flag with its last request, and the other
calls touch no servant. -/
inductive Kind : Thread → Prop
  | issuing (call : Operation) (rest : Program Request Request.Reply Result) (uuid : StdString)
      (issued : call.issued = some uuid) : Kind ⟨call, rest⟩
  | leaving (uuid : StdString) (session : SessionImpl) : Kind ⟨.invoke uuid .logout, finish session.logout⟩
  | left (uuid : StdString) : Kind ⟨.invoke uuid .logout, finish (setLoggedIn false)⟩
  | quiet (call : Operation) (rest : Program Request Request.Reply Result) (other : call.issued = none)
      (stays : ∀ uuid, call = .invoke uuid .logout → rest.value?.isSome)
      (avoids : rest.Avoids Request.TouchesServant) : Kind ⟨call, rest⟩

theorem body_kind (op : Operation) (w : World) : Kind ⟨op, (op.body w).run⟩ := by
  cases op with
  | registerUser u pw =>
      refine .quiet _ _ rfl (by simp) (Program.spares_bind ?_ fun _ => Program.spares_pure _)
      exact spares_registerUser (by simp [Request.TouchesServant]) (by simp [Request.TouchesServant]) u pw
  | login u pw callbackID con uuid => exact .issuing _ _ uuid rfl
  | invoke uuid m =>
      rw [Operation.body]
      cases w.servants uuid with
      | none => exact .quiet _ _ rfl (fun _ _ => rfl) (Program.spares_throw _)
      | some session =>
          by_cases stub : m.IsStub
          · refine .quiet _ _ rfl ?_ (spares_stub (by simp [Request.TouchesServant]) session stub)
            rintro uuid' ⟨⟩
            exact absurd rfl stub.1
          cases m with
          | logout => exact .leaving uuid session
          | deleteUser u =>
              exact .quiet _ _ rfl (by simp) (spares_deleteUser (by simp [Request.TouchesServant])
                (by simp [Request.TouchesServant]) session u)
          | _ => exact absurd ⟨by simp, by simp⟩ stub

theorem Kind.next {call : Operation} {r : Request} {next : r.Reply → Program Request Request.Reply Result}
    (kind : Kind ⟨call, .request r next⟩) (reply : r.Reply) : Kind ⟨call, next reply⟩ := by
  generalize shape : Thread.mk call (.request r next) = t at kind
  cases kind with
  | issuing call rest uuid issued =>
      cases shape
      exact .issuing call _ uuid issued
  | leaving uuid session =>
      cases shape
      exact .left uuid
  | left uuid =>
      cases shape
      exact .quiet _ _ rfl (fun _ _ => rfl) trivial
  | quiet call rest other stays avoids =>
      cases shape
      refine .quiet call _ other (fun uuid out => ?_) (avoids.2 reply)
      exact absurd (stays uuid out) (by simp [Program.value?])

/-! ## Doing the rest at once -/

section
variable [Storage]

namespace Thread

/-- What the thread does up to its next statement. -/
def settled (t : Thread) (w : World) : Program Request Request.Reply Result × World :=
  t.rest.settle t.call.answer Request.isStatement w

def Issues (t : Thread) (uuid : StdString) : Prop :=
  t.call.issued = some uuid ∧ t.rest.value? = none

def Leaves (t : Thread) (uuid : StdString) : Prop :=
  t.call = .invoke uuid .logout ∧ t.rest.value? = none

theorem settled_users (t : Thread) (w : World) : (t.settled w).2.users = w.users :=
  settle_users t.call t.rest w

theorem settled_servants (t : Thread) (w : World) {uuid : StdString} (apart : uuid ≠ t.call.uuid) :
    (t.settled w).2.servants uuid = w.servants uuid :=
  (Program.avoids_nothing t.rest).settle_keeps _ _ (fun w : World => w.servants uuid)
    (fun r w _ => answer_servants t.call r w uuid (.inr apart)) w

theorem settled_alike (t : Thread) {w w' : World} (same : w.servants t.call.uuid = w'.servants t.call.uuid) :
    (t.settled w).1 = (t.settled w').1 ∧
      (t.settled w).2.servants t.call.uuid = (t.settled w').2.servants t.call.uuid :=
  (Program.avoids_nothing t.rest).settle_congr _ Request.isStatement
    (fun w w' : World => w.servants t.call.uuid = w'.servants t.call.uuid)
    (fun r _ _ silent _ now => answer_silent t.call r silent now) same

end Thread

namespace Kind
variable {t : Thread}

theorem settled_congr (kind : Kind t) {w w' : World}
    (same : ∀ uuid, t.call.issued = some uuid → w.servants uuid = w'.servants uuid) :
    (t.settled w).1 = (t.settled w').1 := by
  cases kind with
  | issuing call rest uuid issued =>
      refine (Thread.settled_alike _ ?_).1
      rw [uuid_of_issued issued]
      exact same uuid issued
  | leaving uuid session => rfl
  | left uuid => rfl
  | quiet call rest other stays avoids =>
      refine (avoids.settle_congr _ Request.isStatement (fun _ _ => True) ?_ trivial).1
      exact fun r w w' silent untouched _ => ⟨answer_untouched call r w w' silent untouched, trivial⟩

theorem settled_leaves (kind : Kind t) {uuid : StdString} (leaves : t.Leaves uuid) (w : World) :
    (t.settled w).2.servants uuid =
      (w.servants uuid).map fun session => { session with loggedIn := false } := by
  obtain ⟨out, waiting⟩ := leaves
  cases kind with
  | issuing call rest issued login =>
      subst out
      contradiction
  | leaving other session =>
      cases out
      exact if_pos rfl
  | left other =>
      cases out
      exact if_pos rfl
  | quiet call rest other stays avoids =>
      have ended := stays uuid out
      simp [waiting] at ended

theorem settled_untouched (kind : Kind t) {uuid : StdString} (issues : ¬ t.Issues uuid)
    (leaves : ¬ t.Leaves uuid) (w : World) : (t.settled w).2.servants uuid = w.servants uuid := by
  cases kind with
  | issuing call rest issued login =>
      by_cases apart : uuid = call.uuid
      · cases rest with
        | done result => rfl
        | request r next =>
            refine absurd ⟨?_, rfl⟩ issues
            rw [login, ← uuid_of_issued login, apart]
      · exact Thread.settled_servants _ w apart
  | leaving other session =>
      refine Thread.settled_servants _ w fun same => leaves ⟨?_, rfl⟩
      rw [same]
      rfl
  | left other =>
      refine Thread.settled_servants _ w fun same => leaves ⟨?_, rfl⟩
      rw [same]
      rfl
  | quiet call rest other stays avoids =>
      exact avoids.settle_keeps _ _ (fun w : World => w.servants uuid)
        (fun r w untouched => answer_servants call r w uuid (.inl untouched)) w

end Kind

/-! ## The schedule of the statements is ahead -/

/-- The servant as it will be when the threads that work on it have done the rest. -/
structure ServantAhead (now ahead : ThreadPool) (uuid : StdString) : Prop where
  issuing : ∀ t ∈ now.threads, t.Issues uuid →
    ahead.world.servants uuid = (t.settled now.world).2.servants uuid
  leaving : (∀ t ∈ now.threads, ¬ t.Issues uuid) → (∃ t ∈ now.threads, t.Leaves uuid) →
    ahead.world.servants uuid =
      (now.world.servants uuid).map fun session => { session with loggedIn := false }
  untouched : (∀ t ∈ now.threads, ¬ t.Issues uuid) → (∀ t ∈ now.threads, ¬ t.Leaves uuid) →
    ahead.world.servants uuid = now.world.servants uuid

/-- Nothing else is named like the session that a login is about to issue. -/
def Sole (threads : List Thread) : Prop :=
  ∀ (i j : Nat) t t' uuid, threads[i]? = some t → threads[j]? = some t' → t.Issues uuid →
    t'.call.named = some uuid → i = j

structure Ahead (now ahead : ThreadPool) : Prop where
  kinds : ∀ t ∈ now.threads, Kind t
  sole : Sole now.threads
  users : ahead.world.users = now.world.users
  threads : ahead.threads = now.threads.map fun t => ⟨t.call, (t.settled now.world).1⟩
  servants : ∀ uuid, ServantAhead now ahead uuid

omit [Storage] in
theorem named_of_leaves {t : Thread} {uuid : StdString} (leaves : t.Leaves uuid) :
    t.call.named = some uuid := by
  rw [leaves.1]
  rfl

section
variable {now ahead now' ahead' : ThreadPool} {uuid : StdString}

/-- A step that neither changes the servant nor the threads that work on it. -/
theorem ServantAhead.frame (servant : ServantAhead now ahead uuid)
    (same : now'.world.servants uuid = now.world.servants uuid)
    (sameAhead : ahead'.world.servants uuid = ahead.world.servants uuid)
    (threads : ∀ t, t.Issues uuid ∨ t.Leaves uuid → (t ∈ now'.threads ↔ t ∈ now.threads)) :
    ServantAhead now' ahead' uuid where
  issuing t member issues := by
    have settled := servant.issuing t ((threads t (.inl issues)).mp member) issues
    rw [sameAhead, settled, ← uuid_of_issued issues.1]
    rw [← uuid_of_issued issues.1] at same
    exact (t.settled_alike same.symm).2
  leaving none some := by
    obtain ⟨t, member, leaves⟩ := some
    rw [sameAhead, same]
    refine servant.leaving (fun t member issues => ?_) ⟨t, (threads t (.inr leaves)).mp member, leaves⟩
    exact none t ((threads t (.inl issues)).mpr member) issues
  untouched none stays := by
    rw [sameAhead, same]
    refine servant.untouched (fun t member issues => ?_) fun t member leaves => ?_
    · exact none t ((threads t (.inl issues)).mpr member) issues
    · exact stays t ((threads t (.inr leaves)).mpr member) leaves

end

/-! ## Dispatching -/

section
variable {now ahead : ThreadPool}

omit [Storage] in
/-- Calls see the same sessions but for the `loggedIn` flag, which none of them reads. -/
theorem body_ahead {op : Operation} {w t : World}
    (same : ∀ uuid m, op = .invoke uuid m → w.servants uuid = t.servants uuid ∨
      w.servants uuid = (t.servants uuid).map fun session => { session with loggedIn := false }) :
    op.body w = op.body t := by
  cases op with
  | invoke uuid m =>
      rcases same uuid m rfl with equal | out
      · simp only [Operation.body, equal]
      · cases called : t.servants uuid with
        | none =>
            rw [called] at out
            simp only [Operation.body, called, out, Option.map_none]
        | some session =>
            rw [called] at out
            simp only [Operation.body, called, out, Option.map_some]
            cases m <;> rfl
  | _ => rfl

omit [Storage] in
theorem not_issues {uuid : StdString}
    (issued : ∀ t ∈ now.threads, t.call.issued = some uuid → t.rest.value?.isSome) :
    ∀ t ∈ now.threads, ¬ t.Issues uuid := by
  intro t member issues
  have ended := issued t member issues.1
  simp [issues.2] at ended

theorem Ahead.servant_of_idle (relation : Ahead now ahead) {uuid : StdString}
    (idle : ∀ t ∈ now.threads, ¬ t.Issues uuid) :
    ahead.world.servants uuid = now.world.servants uuid ∨ ahead.world.servants uuid =
      (now.world.servants uuid).map fun session => { session with loggedIn := false } := by
  by_cases leaves : ∃ t ∈ now.threads, t.Leaves uuid
  · exact .inr ((relation.servants uuid).leaving idle leaves)
  · refine .inl ((relation.servants uuid).untouched idle fun t member out => leaves ⟨t, member, out⟩)

omit [Storage] in
theorem mem_concat_of_ne (p : Thread → Prop) {new : Thread} (other : ¬ p new) {t : Thread} (chosen : p t) :
    t ∈ now.threads ++ [new] ↔ t ∈ now.threads := by
  rw [List.mem_append, List.mem_singleton, or_iff_left_iff_imp]
  rintro rfl
  exact absurd chosen other

omit [Storage] in
theorem getElem?_concat_threads {threads : List Thread} {new t : Thread} {i : Nat}
    (found : (threads ++ [new])[i]? = some t) :
    threads[i]? = some t ∨ (i = threads.length ∧ t = new) := by
  rw [List.getElem?_append] at found
  split at found
  · exact .inl found
  · next late =>
      obtain ⟨bound, same⟩ := List.getElem?_eq_some_iff.mp found
      refine .inr ⟨?_, by simpa using same.symm⟩
      simp only [List.length_singleton] at bound
      omega

section
variable {op : Operation} {uuid : StdString}

theorem fresh_of_unguessed (unguessed : Unguessed (moment ThreadPool.turn now (.dispatch op)))
    (issued : op.issued = some uuid) : ∀ t ∈ now.threads, t.call.named ≠ some uuid := by
  cases op with
  | login u pw callbackID con issuing =>
      cases issued
      exact unguessed
  | _ => contradiction

theorem idle_of_unguessed (unguessed : Unguessed (moment ThreadPool.turn now (.dispatch op)))
    {m : SessionMethod} (called : op = .invoke uuid m) : ∀ t ∈ now.threads, ¬ t.Issues uuid := by
  subst called
  exact not_issues unguessed

section
variable (relation : Ahead now ahead) (unguessed : Unguessed (moment ThreadPool.turn now (.dispatch op)))
include relation unguessed

theorem Ahead.free (issued : op.issued = some uuid) :
    now.world.servants uuid = ahead.world.servants uuid := by
  have fresh := fresh_of_unguessed unguessed issued
  refine ((relation.servants uuid).untouched ?_ ?_).symm
  · exact fun t member issues => fresh t member (named_of_issued issues.1)
  · exact fun t member leaves => fresh t member (named_of_leaves leaves)

theorem Ahead.sole_dispatched : Sole (now.threads ++ [⟨op, (op.body now.world).run⟩]) := by
  intro i j t t' uuid first second issues named
  rcases getElem?_concat_threads first with earlier | ⟨rfl, rfl⟩ <;>
    rcases getElem?_concat_threads second with earlier' | ⟨rfl, rfl⟩
  · exact relation.sole i j t t' uuid earlier earlier' issues named
  · -- a login that is still running has a name that no later call bears
    cases op with
    | registerUser u pw => contradiction
    | login u pw callbackID con issuing =>
        exact absurd (named_of_issued issues.1)
          (named ▸ fresh_of_unguessed unguessed rfl t (List.mem_of_getElem? earlier))
    | invoke called m =>
        obtain rfl : called = uuid := Option.some.inj named
        exact absurd issues (idle_of_unguessed unguessed rfl t (List.mem_of_getElem? earlier))
  · exact absurd named (fresh_of_unguessed unguessed issues.1 t' (List.mem_of_getElem? earlier'))
  · rfl

section
variable {new : Thread} (call : new.call = op) {ahead' : ThreadPool}
  (settled : ahead'.world.servants uuid = (new.settled ahead.world).2.servants uuid)
include call settled

/-- The session that a dispatched login is going to issue. -/
theorem Ahead.servant_new_login (issues : new.Issues uuid) :
    ServantAhead ⟨now.world, now.threads ++ [new]⟩ ahead' uuid := by
  have issued : op.issued = some uuid := call ▸ issues.1
  refine ⟨fun t member again => ?_, fun idle => absurd issues (idle new (by simp)),
    fun idle => absurd issues (idle new (by simp))⟩
  rcases List.mem_append.mp member with earlier | last
  · exact absurd (named_of_issued again.1) (fresh_of_unguessed unguessed issued t earlier)
  · obtain rfl := List.mem_singleton.mp last
    have name := uuid_of_issued issues.1
    have same := (relation.free unguessed issued).symm
    exact settled.trans (name ▸ (t.settled_alike (name ▸ same)).2)

/-- The session that a dispatched logout is going to leave. -/
theorem Ahead.servant_new_logout (kind : Kind new) (leaves : new.Leaves uuid) :
    ServantAhead ⟨now.world, now.threads ++ [new]⟩ ahead' uuid := by
  have idle := idle_of_unguessed unguessed (call ▸ leaves.1)
  refine ⟨fun t member again => ?_, fun _ _ => ?_, fun _ stays => absurd leaves (stays new (by simp))⟩
  · rcases List.mem_append.mp member with earlier | last
    · exact absurd again (idle t earlier)
    · obtain rfl := List.mem_singleton.mp last
      have issued := again.1
      rw [leaves.1] at issued
      contradiction
  · rw [settled, kind.settled_leaves leaves]
    rcases relation.servant_of_idle idle with same | out
    · rw [same]
    · rw [out, Option.map_map]
      rfl

end

theorem Ahead.servants_dispatched {new : Thread} (call : new.call = op) (kind : Kind new)
    {ahead' : ThreadPool} (settled : ahead'.world = (new.settled ahead.world).2) (uuid : StdString) :
    ServantAhead ⟨now.world, now.threads ++ [new]⟩ ahead' uuid := by
  have same : ahead'.world.servants uuid = (new.settled ahead.world).2.servants uuid := by rw [settled]
  by_cases issues : new.Issues uuid
  · exact relation.servant_new_login unguessed call same issues
  by_cases leaves : new.Leaves uuid
  · exact relation.servant_new_logout unguessed call same kind leaves
  · refine (relation.servants uuid).frame rfl (same.trans (kind.settled_untouched issues leaves _)) ?_
    rintro t (chosen | chosen)
    · exact mem_concat_of_ne (·.Issues uuid) issues chosen
    · exact mem_concat_of_ne (·.Leaves uuid) leaves chosen

theorem Ahead.dispatch : Ahead (ThreadPool.turn (.dispatch op) now).2 (ThreadPool.act (.dispatch op) ahead).2 := by
  have body : op.body ahead.world = op.body now.world :=
    body_ahead fun uuid m called => relation.servant_of_idle (idle_of_unguessed unguessed called)
  let new : Thread := ⟨op, (op.body now.world).run⟩
  have kind : Kind new := body_kind op now.world
  have turned : (ThreadPool.turn (.dispatch op) now).2 = ⟨now.world, now.threads ++ [new]⟩ := rfl
  have acted : (ThreadPool.act (.dispatch op) ahead).2 =
      ⟨(new.settled ahead.world).2, ahead.threads ++ [⟨op, (new.settled ahead.world).1⟩]⟩ := by
    simp only [ThreadPool.act, body]
    rfl
  rw [turned, acted]
  refine ⟨forall_mem_concat.mpr ⟨relation.kinds, kind⟩, relation.sole_dispatched unguessed, ?_, ?_,
    relation.servants_dispatched unguessed rfl kind rfl⟩
  · exact (Thread.settled_users ..).trans relation.users
  · rw [relation.threads, List.map_append, List.map_singleton,
      kind.settled_congr fun uuid issued => relation.free unguessed issued]

end
end
end

/-! ## Answering a request -/

namespace Kind
variable {call : Operation} {r : Request} {next : r.Reply → Program Request Request.Reply Result}
  {uuid : StdString}

theorem answer_untouched (kind : Kind ⟨call, .request r next⟩) (issues : call.issued ≠ some uuid)
    (leaves : call ≠ .invoke uuid .logout) (w : World) :
    (call.answer r w).2.servants uuid = w.servants uuid := by
  generalize shape : Thread.mk call (.request r next) = t at kind
  cases kind with
  | issuing call' rest issuing login =>
      cases shape
      refine answer_servants call r w uuid (.inr fun same => issues ?_)
      rw [login, same, uuid_of_issued login]
  | leaving other session =>
      cases shape
      rfl
  | left other =>
      cases shape
      refine answer_servants _ _ w uuid (.inr fun same => leaves ?_)
      rw [same]
      rfl
  | quiet call' rest other stays avoids =>
      cases shape
      exact answer_servants call r w uuid (.inl avoids.1)

/-- A logout logs its line, then it clears the flag with its last request. -/
theorem answer_leaves (kind : Kind ⟨call, .request r next⟩) (leaves : call = .invoke uuid .logout) (w : World) :
    r.isStatement = false ∧
    ((next (call.answer r w).1).value? = none ∧ (call.answer r w).2.servants uuid = w.servants uuid ∨
      (call.answer r w).2.servants uuid =
        (w.servants uuid).map fun session => { session with loggedIn := false }) := by
  generalize shape : Thread.mk call (.request r next) = t at kind
  cases kind with
  | issuing call' rest issuing login =>
      cases shape
      subst leaves
      contradiction
  | leaving other session =>
      cases shape
      exact ⟨rfl, .inl ⟨rfl, rfl⟩⟩
  | left other =>
      cases shape
      cases leaves
      exact ⟨rfl, .inr (if_pos rfl)⟩
  | quiet call' rest other stays avoids =>
      cases shape
      exact absurd (stays uuid leaves) (by simp [Program.value?])

end Kind

section
variable {now ahead : ThreadPool} {i : Nat} {call : Operation} {r : Request}
  {next : r.Reply → Program Request Request.Reply Result}

theorem turn_advance (found : now.threads[i]? = some ⟨call, .request r next⟩) :
    ThreadPool.turn (.advance i) now =
      (some ⟨i, call, some r, (next (call.answer r now.world).1).value?⟩,
        ⟨(call.answer r now.world).2, now.threads.set i ⟨call, next (call.answer r now.world).1⟩⟩) := by
  simp only [ThreadPool.turn, found]

omit [Storage] in
theorem getElem?_set_threads {threads : List Thread} {t' t : Thread} {j : Nat}
    (found : (threads.set i t')[j]? = some t) : (j = i ∧ t = t') ∨ (j ≠ i ∧ threads[j]? = some t) := by
  by_cases same : j = i
  · subst same
    obtain ⟨bound, at_index⟩ := List.getElem?_eq_some_iff.mp found
    exact .inl ⟨rfl, by simpa using at_index.symm⟩
  · exact .inr ⟨same, by rwa [List.getElem?_set_ne (Ne.symm same)] at found⟩

omit [Storage] in
theorem mem_set_of_ne (p : Thread → Prop) {threads : List Thread} {old new t : Thread}
    (found : threads[i]? = some old) (before : ¬ p old) (after : ¬ p new) (chosen : p t) :
    t ∈ threads.set i new ↔ t ∈ threads := by
  constructor
  · intro member
    exact (List.mem_or_eq_of_mem_set member).resolve_right fun same => after (same ▸ chosen)
  · intro member
    obtain ⟨j, bound⟩ := List.getElem?_of_mem member
    refine List.mem_of_getElem? (i := j) ?_
    rwa [List.getElem?_set_ne]
    rintro rfl
    rw [found, Option.some.injEq] at bound
    exact before (bound ▸ chosen)

section
variable (relation : Ahead now ahead) (found : now.threads[i]? = some ⟨call, .request r next⟩)
include relation found

theorem Ahead.kind_found : Kind ⟨call, .request r next⟩ :=
  relation.kinds _ (List.mem_of_getElem? found)

theorem Ahead.kinds_turned (reply : r.Reply) : ∀ t ∈ now.threads.set i ⟨call, next reply⟩, Kind t := by
  intro t member
  rcases List.mem_or_eq_of_mem_set member with earlier | rfl
  · exact relation.kinds t earlier
  · exact (relation.kind_found found).next reply

theorem Ahead.sole_turned (reply : r.Reply) : Sole (now.threads.set i ⟨call, next reply⟩) := by
  intro j k t t' uuid first second issues named
  -- the thread is still named alike, and it was running before
  have before (l : Nat) (u : Thread) (at_index : (now.threads.set i ⟨call, next reply⟩)[l]? = some u) :
      ∃ u', now.threads[l]? = some u' ∧ u'.call = u.call ∧ (u.rest.value? = none → u'.rest.value? = none) := by
    rcases getElem?_set_threads at_index with ⟨rfl, rfl⟩ | ⟨_, same⟩
    · exact ⟨_, found, rfl, fun _ => rfl⟩
    · exact ⟨u, same, rfl, id⟩
  obtain ⟨t₀, found₀, call₀, running⟩ := before j t first
  obtain ⟨t₁, found₁, call₁, _⟩ := before k t' second
  exact relation.sole j k t₀ t₁ uuid found₀ found₁ ⟨call₀ ▸ issues.1, running issues.2⟩ (call₁ ▸ named)

theorem Ahead.servant_apart {uuid : StdString} {j : Nat} {t : Thread} (other : j ≠ i)
    (found' : now.threads[j]? = some t) (issues : t.Issues uuid) :
    (call.answer r now.world).2.servants uuid = now.world.servants uuid := by
  have apart : call.named ≠ some uuid := fun named =>
    other (relation.sole j i t _ uuid found' found issues named)
  refine (relation.kind_found found).answer_untouched (fun issued => apart (named_of_issued issued)) ?_ _
  rintro rfl
  exact apart rfl

theorem Ahead.threads_turned (rest : Program Request Request.Reply Result) :
    (now.threads.set i ⟨call, rest⟩).map
        (fun t => (⟨t.call, (t.settled (call.answer r now.world).2).1⟩ : Thread)) =
      ahead.threads.set i ⟨call, ((⟨call, rest⟩ : Thread).settled (call.answer r now.world).2).1⟩ := by
  rw [List.map_set, relation.threads]
  apply List.ext_getElem?
  intro j
  by_cases same : j = i
  · subst same
    simp only [List.getElem?_set, List.length_map, ↓reduceIte]
  rw [List.getElem?_set_ne (Ne.symm same), List.getElem?_set_ne (Ne.symm same), List.getElem?_map,
    List.getElem?_map]
  cases found' : now.threads[j]? with
  | none => rfl
  | some t =>
      simp only [Option.map_some, Option.some.injEq, Thread.mk.injEq, true_and]
      rcases t with ⟨call', result | ⟨r', next'⟩⟩
      · rfl
      · refine (relation.kinds _ (List.mem_of_getElem? found')).settled_congr fun uuid issued => ?_
        exact relation.servant_apart found same found' ⟨issued, rfl⟩

/-- While a login is running, its thread is the only one that works on its session. -/
theorem Ahead.only {uuid : StdString} {reply : r.Reply} (issued : call.issued = some uuid) {t : Thread}
    (member : t ∈ now.threads.set i ⟨call, next reply⟩) (named : t.call.named = some uuid) :
    t = ⟨call, next reply⟩ := by
  obtain ⟨j, at_index⟩ := List.getElem?_of_mem member
  rcases getElem?_set_threads at_index with ⟨_, same⟩ | ⟨other, earlier⟩
  · exact same
  · exact absurd (relation.sole i j _ t uuid found earlier ⟨issued, rfl⟩ named).symm other

/-- The session of a running login, when its thread has had an answer. -/
theorem Ahead.servant_issuing {uuid : StdString} {reply : r.Reply} {w : World} {ahead' : ThreadPool}
    (issued : call.issued = some uuid)
    (settled : ahead'.world.servants uuid = ((⟨call, next reply⟩ : Thread).settled w).2.servants uuid) :
    ServantAhead ⟨w, now.threads.set i ⟨call, next reply⟩⟩ ahead' uuid := by
  have kind := relation.kinds_turned found reply
  have member : (⟨call, next reply⟩ : Thread) ∈ now.threads.set i ⟨call, next reply⟩ :=
    List.mem_set (List.getElem?_eq_some_iff.mp found).1 _
  have out (t : Thread) (at_index : t ∈ now.threads.set i ⟨call, next reply⟩) : ¬ t.Leaves uuid := by
    intro leaves
    rw [relation.only found issued at_index (named_of_leaves leaves)] at leaves
    have called : call = .invoke uuid .logout := leaves.1
    subst called
    contradiction
  refine ⟨fun t again issues => ?_, fun _ some => ?_, fun idle _ => ?_⟩
  · rw [relation.only found issued again (named_of_issued issues.1)]
    exact settled
  · obtain ⟨t, again, leaves⟩ := some
    exact absurd leaves (out t again)
  · exact settled.trans ((kind _ member).settled_untouched (idle _ member) (out _ member) w)

/-- The session that a logout works on, when its thread has had an answer. -/
theorem Ahead.servant_leaving {uuid : StdString} (leaves : call = .invoke uuid .logout) :
    ServantAhead ⟨(call.answer r now.world).2, now.threads.set i ⟨call, next (call.answer r now.world).1⟩⟩
      ahead uuid := by
  have here : (⟨call, .request r next⟩ : Thread).Leaves uuid := ⟨leaves, rfl⟩
  have idle (t : Thread) (member : t ∈ now.threads) : ¬ t.Issues uuid := by
    intro issues
    obtain ⟨j, at_index⟩ := List.getElem?_of_mem member
    obtain rfl := relation.sole j i t _ uuid at_index found issues (named_of_leaves here)
    rw [found, Option.some.injEq] at at_index
    subst at_index
    have issued := issues.1
    subst leaves
    contradiction
  have out := (relation.servants uuid).leaving idle ⟨_, List.mem_of_getElem? found, here⟩
  obtain ⟨_, answered⟩ := (relation.kind_found found).answer_leaves leaves now.world
  constructor
  · intro t member issues
    rcases List.mem_or_eq_of_mem_set member with earlier | rfl
    · exact absurd issues (idle t earlier)
    · have issued := issues.1
      subst leaves
      contradiction
  · intro _ _
    rcases answered with ⟨_, same⟩ | cleared
    · rw [out, same]
    · rw [out, cleared, Option.map_map]
      rfl
  · intro _ stays
    rcases answered with ⟨running, _⟩ | cleared
    · exact absurd ⟨leaves, running⟩
        (stays _ (List.mem_set (List.getElem?_eq_some_iff.mp found).1 _))
    · rw [out, cleared]

/-- A session that the thread does not work on. -/
theorem Ahead.servant_other {uuid : StdString} {w : World} {ahead' : ThreadPool} (reply : r.Reply)
    (issues : call.issued ≠ some uuid) (leaves : call ≠ .invoke uuid .logout)
    (same : w.servants uuid = now.world.servants uuid)
    (sameAhead : ahead'.world.servants uuid = ahead.world.servants uuid) :
    ServantAhead ⟨w, now.threads.set i ⟨call, next reply⟩⟩ ahead' uuid := by
  refine (relation.servants uuid).frame same sameAhead ?_
  rintro t (chosen | chosen)
  · exact mem_set_of_ne (·.Issues uuid) found (fun own => issues own.1) (fun own => issues own.1) chosen
  · exact mem_set_of_ne (·.Leaves uuid) found (fun own => leaves own.1) (fun own => leaves own.1) chosen

theorem Ahead.found_ahead :
    ahead.threads[i]? = some ⟨call, ((⟨call, .request r next⟩ : Thread).settled now.world).1⟩ := by
  rw [relation.threads, List.getElem?_map, found]
  rfl

theorem Ahead.silent (silent : r.isStatement = false) :
    Ahead (ThreadPool.turn (.advance i) now).2 ahead := by
  have rest : (⟨call, .request r next⟩ : Thread).settled now.world =
      (⟨call, next (call.answer r now.world).1⟩ : Thread).settled (call.answer r now.world).2 := by
    simp [Thread.settled, Program.settle, silent]
  rw [turn_advance found]
  refine ⟨relation.kinds_turned found _, relation.sole_turned found _, ?_, ?_, ?_⟩
  · have none : r.statement = none := by simpa using silent
    rw [relation.users, answer_users, none, Option.elim_none]
  · obtain ⟨bound, same⟩ := List.getElem?_eq_some_iff.mp (relation.found_ahead found)
    rw [relation.threads_turned found, ← rest, ← same, List.set_getElem_self bound]
  · intro uuid
    by_cases issued : call.issued = some uuid
    · refine relation.servant_issuing found issued ?_
      rw [← rest]
      exact (relation.servants uuid).issuing _ (List.mem_of_getElem? found) ⟨issued, rfl⟩
    by_cases leaves : call = .invoke uuid .logout
    · exact relation.servant_leaving found leaves
    · exact relation.servant_other found _ issued leaves
        ((relation.kind_found found).answer_untouched issued leaves _) rfl

theorem Ahead.statement (statement : r.isStatement = true) :
    Ahead (ThreadPool.turn (.advance i) now).2 (ThreadPool.act (.advance i) ahead).2 := by
  obtain ⟨s, rfl⟩ : ∃ s, r = .sql s := by
    cases r with
    | sql s => exact ⟨s, rfl⟩
    | _ => contradiction
  have kind := (relation.kind_found found).next (call.answer (.sql s) now.world).1
  let new : Thread := ⟨call, next (call.answer (.sql s) now.world).1⟩
  let w := (call.answer (.sql s) ahead.world).2
  let w' := (call.answer (.sql s) now.world).2
  have reply : (call.answer (.sql s) ahead.world).1 = (call.answer (.sql s) now.world).1 := by
    simp only [Operation.answer, relation.users]
    rfl
  have stepped : (ThreadPool.act (.advance i) ahead).2 =
      ⟨(new.settled w).2, ahead.threads.set i ⟨call, (new.settled w).1⟩⟩ := by
    have waiting : ahead.threads[i]? = some ⟨call, .request (.sql s) next⟩ := relation.found_ahead found
    simp only [ThreadPool.act, waiting, Program.advance, reply]
    rfl
  have issuing (uuid : StdString) (issued : call.issued = some uuid) : w.servants uuid = w'.servants uuid :=
    (relation.servants uuid).issuing _ (List.mem_of_getElem? found) ⟨issued, rfl⟩
  have rest : (new.settled w).1 = (new.settled w').1 := kind.settled_congr issuing
  rw [turn_advance found, stepped]
  refine ⟨relation.kinds_turned found _, relation.sole_turned found _, ?_, ?_, ?_⟩
  · refine (new.settled_users w).trans ?_
    simp only [w, Operation.answer, relation.users]
    rfl
  · rw [relation.threads_turned found, rest]
  · intro uuid
    by_cases issued : call.issued = some uuid
    · refine relation.servant_issuing found issued ?_
      obtain rfl := uuid_of_issued issued
      exact (new.settled_alike (issuing _ issued)).2
    by_cases leaves : call = .invoke uuid .logout
    · have silent := ((relation.kind_found found).answer_leaves leaves now.world).1
      rw [statement] at silent
      contradiction
    · refine relation.servant_other found _ issued leaves rfl ?_
      exact kind.settled_untouched (fun own => issued own.1) (fun own => leaves own.1) w

end
end

/-! ## Schedules -/

theorem ahead_start : Ahead .start .start where
  kinds := by simp [ThreadPool.start]
  sole := by simp [Sole, ThreadPool.start]
  users := rfl
  threads := rfl
  servants uuid := ⟨by simp [ThreadPool.start], by simp [ThreadPool.start], fun _ _ => rfl⟩

theorem turns_concat (actions : List Action) (a : Action) : turns (actions ++ [a]) =
    turns actions ++ [moment ThreadPool.turn (interleaving actions) a] :=
  history_concat ..

theorem interleaving_concat (actions : List Action) (a : Action) :
    interleaving (actions ++ [a]) = (ThreadPool.turn a (interleaving actions)).2 :=
  final_concat ..

theorem statements_concat (actions : List Action) (a : Action) : statements (actions ++ [a]) =
    statements actions ++ ((ThreadPool.turn a (interleaving actions)).1.bind fun turn =>
      if turn.isStatement then some a else none).toList := by
  unfold statements
  rw [turns_concat, List.filterMap_append]
  congr 1

theorem statements_ahead (actions : List Action) (unguessed : ∀ m ∈ turns actions, Unguessed m) :
    Ahead (interleaving actions) (pool (statements actions)) := by
  induction actions using List.reverseRecOn with
  | nil => exact ahead_start
  | append_singleton actions a ih =>
      rw [turns_concat, forall_mem_concat] at unguessed
      have relation := ih unguessed.1
      rw [statements_concat, interleaving_concat]
      cases a with
      | dispatch op =>
          have kept : statements actions ++ ((ThreadPool.turn (.dispatch op) (interleaving actions)).1.bind
              fun turn => if turn.isStatement then some (.dispatch op) else none).toList =
              statements actions ++ [.dispatch op] := rfl
          rw [kept, pool, final_concat]
          exact relation.dispatch unguessed.2
      | advance i =>
          cases found : (interleaving actions).threads[i]? with
          | none => simpa [ThreadPool.turn, found] using relation
          | some t =>
              rcases t with ⟨call, result | ⟨r, next⟩⟩
              · simpa [ThreadPool.turn, found] using relation
              cases silent : r.isStatement with
              | false =>
                  have dropped := relation.silent found silent
                  simpa [turn_advance found, Turn.isStatement, silent] using dropped
              | true =>
                  have kept := relation.statement found silent
                  simpa [turn_advance found, Turn.isStatement, silent, pool, final_concat] using kept

/-! ## Linearizability -/

def ThreadPool.results (pool : ThreadPool) : List (Operation × Result) :=
  pool.threads.filterMap fun t => t.rest.value?.map (t.call, ·)

/-- The calls in the order of their last statements. -/
def served (actions : List Action) : List (Operation × Result) :=
  completed (trace (statements actions))

/-- Serving the calls one at a time in the order of their last statements gives every call its result
and its effect, and serves a call that returned before another one was dispatched before it. -/
structure Linearized (actions : List Action) : Prop where
  legal : Legal perform .empty (served actions)
  calls : (served actions).Perm (interleaving actions).results
  order : ∀ before, before <+: actions →
    served before <+: served actions ∧ (interleaving before).results ⊆ served before
  rows : (interleaving actions).world.users.rows = (world ((served actions).map Prod.fst)).users.rows
  servants : (interleaving actions).world.servants = (world ((served actions).map Prod.fst)).servants

omit [Storage] in
theorem filterMap_set_perm {α β : Type} (f : α → Option β) {xs : List α} {i : Nat} {old : α} (new : α)
    (found : xs[i]? = some old) (none : f old = none) :
    ((xs.set i new).filterMap f).Perm (xs.filterMap f ++ (f new).toList) := by
  induction xs generalizing i with
  | nil => simp at found
  | cons x xs ih =>
      cases i with
      | zero =>
          obtain rfl : x = old := by simpa using found
          rw [List.set_cons_zero, List.filterMap_cons_none none]
          cases value : f new with
          | none => simp [value]
          | some b => simpa [value] using (List.perm_append_singleton b (xs.filterMap f)).symm
      | succ i =>
          have rest := ih (by simpa using found)
          rw [List.set_cons_succ]
          cases value : f x with
          | none => simpa [value] using rest
          | some b => simpa [value] using rest.cons b

theorem completed_perm (schedule : List Action) : (completed (trace schedule)).Perm (pool schedule).results := by
  refine history_rule ThreadPool.act (fun h now => (completed (eventsOf h)).Perm now.results)
    (by simp [completed, eventsOf, ThreadPool.results, ThreadPool.start]) ?_ schedule
  intro past now a earlier
  rw [eventsOf_concat, completed, List.filterMap_append]
  cases a with
  | dispatch op =>
      rw [ThreadPool.results, ThreadPool.act, List.filterMap_append]
      exact earlier.append (.refl _)
  | advance i =>
      cases found : now.threads[i]? with
      | none => simpa [moment, ThreadPool.act, found, completed] using earlier
      | some t =>
          rcases t with ⟨call, result | ⟨r, next⟩⟩
          · simpa [moment, ThreadPool.act, found, completed] using earlier
          · let moved := (Program.request r next).advance call.answer Request.isStatement now.world
            have acted : ThreadPool.act (.advance i) now = (some ⟨i, call, r.statement, moved.1.value?⟩,
                ⟨moved.2, now.threads.set i ⟨call, moved.1⟩⟩) := by
              simp only [ThreadPool.act, found]
              rfl
            rw [moment, acted]
            have set := filterMap_set_perm (fun t : Thread => t.rest.value?.map (t.call, ·)) ⟨call, moved.1⟩ found rfl
            refine .trans ?_ set.symm
            refine (earlier.append (.refl _)).trans (.of_eq ?_)
            cases value : moved.1.value? <;> simp [Event.completed, ThreadPool.results]

theorem prefix_of_append_actions (before after : List Action) :
    turns before <+: turns (before ++ after) ∧ served before <+: served (before ++ after) := by
  have turned : turns before <+: turns (before ++ after) := by
    rw [turns, turns, history_append]
    exact List.prefix_append _ _
  refine ⟨turned, ?_⟩
  obtain ⟨later, same⟩ := turned.filterMap fun m =>
    m.output.bind fun turn : Turn => if turn.isStatement then some m.action else none
  unfold served statements
  rw [← same, trace, trace, history_append]
  exact ((List.prefix_append _ _).filterMap Moment.output).filterMap Event.completed

theorem Ahead.results_subset {now ahead : ThreadPool} (relation : Ahead now ahead) :
    now.results ⊆ ahead.results := by
  intro c member
  obtain ⟨t, here, value⟩ := List.mem_filterMap.mp member
  rw [ThreadPool.results, relation.threads, List.filterMap_map]
  refine List.mem_filterMap.mpr ⟨t, here, ?_⟩
  rcases t with ⟨call, result | ⟨r, next⟩⟩
  · exact value
  · simp [Program.value?] at value

/-- When all calls have returned there is nothing left to be ahead with. -/
theorem Ahead.eq {now ahead : ThreadPool} (relation : Ahead now ahead)
    (returned : ∀ t ∈ now.threads, t.rest.value?.isSome) : ahead = now := by
  have idle (t : Thread) (member : t ∈ now.threads) : t.rest.value? ≠ none := by
    intro running
    have ended := returned t member
    simp [running] at ended
  have threads : ahead.threads = now.threads := by
    rw [relation.threads]
    refine (List.map_congr_left fun t member => ?_).trans (List.map_id _)
    rcases t with ⟨call, result | ⟨r, next⟩⟩
    · rfl
    · exact absurd rfl (idle _ member)
  have servants : ahead.world.servants = now.world.servants := by
    funext uuid
    exact (relation.servants uuid).untouched (fun t member issues => idle t member issues.2)
      fun t member leaves => idle t member leaves.2
  have users := relation.users
  rcases now with ⟨⟨_, _⟩, _⟩
  rcases ahead with ⟨⟨_, _⟩, _⟩
  simp_all

end

/-- The second session is exposed after the account that it was issued for has been deleted. -/
def lateExposure : List Action :=
  [.dispatch (.registerUser alice (lit "pw")), .advance 0, .advance 0, .advance 0, .advance 0,
    .dispatch (aliceLogin alice (lit "pw") (lit "s")), .advance 1, .advance 1, .advance 1, .advance 1,
    .advance 1, .advance 1, .dispatch (aliceLogin alice (lit "pw") (lit "t")), .advance 2, .advance 2,
    .dispatch (.invoke (lit "s") (.deleteUser alice)), .advance 3, .advance 3,
    .advance 2, .advance 2, .advance 2, .advance 2]

end SecureChat
