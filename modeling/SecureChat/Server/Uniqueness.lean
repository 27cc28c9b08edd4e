import SecureChat.Server.Concurrency
import SecureChat.Server.Ownership

/-!
# One registration for each name

A schedule keeps the names unique exactly when every `INSERT` still finds what the `SELECT` of the
same call saw. The columns carry no `UNIQUE` constraint and the two statements are in no
transaction, so a schedule need not.
-/

namespace SecureChat
open Library

section
variable [Storage]

def Event.Completes (e : Event) (k : StdString) (result : Result) : Prop :=
  (∃ u pw, e.call = .registerUser u pw ∧ account u.ID = k) ∧ e.returned = some result

def Event.Deletes (e : Event) (k : StdString) : Prop :=
  ∃ id, e.statement = some (.delete id) ∧ asText id = k

def UniqueThroughout (actions : List Action) : Prop :=
  ∀ before after, actions = before ++ after → (pool before).world.users.UniqueIds

/-- Between two registrations of a name that return normally the name is deleted. -/
def OncePerName (events : List Event) : Prop :=
  ∀ first a mid b last k x y, events = first ++ a :: mid ++ b :: last →
    a.Completes k (.ok x) → b.Completes k (.ok y) → ∃ e ∈ mid, e.Deletes k

def OthersThrow (events : List Event) : Prop :=
  ∀ e ∈ events, ∀ k fault, e.Completes k (.error fault) → ∃ what, fault = AuthenticationException what

structure RegistersOncePerName (actions : List Action) : Prop where
  unique : UniqueThroughout actions
  once : OncePerName (trace actions)
  otherwise : OthersThrow (trace actions)

/-- Of the rows that other calls insert for a name between the `SELECT` and the `INSERT` of one
call, none is left at the `INSERT`. -/
def LookupsHold (events : List Event) : Prop :=
  ∀ before selected since inserted rest row, events = before ++ selected :: since ++ inserted :: rest →
    selected.thread = inserted.thread → selected.statement = some (.select row.id) →
    inserted.statement = some (.insert row) → (∀ e ∈ since, e.thread ≠ inserted.thread) →
    Vacant since (asText row.id)

/-! ## Unique names and lookups that hold -/

theorem uniqueThroughout_concat (actions : List Action) (a : Action) :
    UniqueThroughout (actions ++ [a]) ↔
      UniqueThroughout actions ∧ (pool (actions ++ [a])).world.users.UniqueIds := by
  constructor
  · intro unique
    exact ⟨fun before after split => unique before (after ++ [a]) (by simp [split]),
      unique (actions ++ [a]) [] (by simp)⟩
  · intro parts before after split
    obtain ⟨earlier, now⟩ := parts
    rcases List.eq_nil_or_concat after with rfl | ⟨after, last, rfl⟩
    · rw [List.append_nil] at split
      exact split ▸ now
    · rw [List.concat_eq_append, ← List.append_assoc] at split
      exact earlier before after (List.append_inj' split rfl).1

theorem lookupsHold_concat (events : List Event) (inserted : Event) :
    LookupsHold (events ++ [inserted]) ↔ LookupsHold events ∧
      ∀ before selected since row, events = before ++ selected :: since → selected.thread = inserted.thread →
        selected.statement = some (.select row.id) → inserted.statement = some (.insert row) →
        (∀ e ∈ since, e.thread ≠ inserted.thread) → Vacant since (asText row.id) := by
  constructor
  · intro holds
    refine ⟨fun before selected since inserted' rest row split => ?_,
      fun before selected since row split => ?_⟩
    · exact holds before selected since inserted' (rest ++ [inserted]) row (by simp [split])
    · exact holds before selected since inserted [] row (by simp [split])
  · intro parts before selected since inserted' rest row split
    obtain ⟨earlier, last⟩ := parts
    rcases concat_eq_append_cons.mp split with ⟨same, rfl, _⟩ | ⟨middle, _, same⟩
    · exact last before selected since row same
    · exact earlier before selected since inserted' middle row same

omit [Storage] in
theorem last_of_thread {before before' since since' : List Event} {e e' : Event}
    (same : before ++ e :: since = before' ++ e' :: since') (thread : e.thread = e'.thread)
    (others : ∀ x ∈ since, x.thread ≠ e.thread) (others' : ∀ x ∈ since', x.thread ≠ e'.thread) :
    since = since' := by
  rcases List.append_eq_append_iff.mp same with ⟨middle, _, rest⟩ | ⟨middle, _, rest⟩ <;>
    rcases middle with _ | ⟨x, middle⟩ <;>
    simp only [List.nil_append, List.cons_append, List.cons.injEq] at rest
  · exact rest.2
  · exact absurd thread.symm (others e' (by simp [rest.2]))
  · exact rest.2.symm
  · exact absurd thread (others' e (by simp [rest.2]))

theorem vacant_of_lookedUp {events : List Event} {users : Users} {i : Nat} {k : StdString}
    (lookedUp : LookedUp events users i k) :
    (∀ before selected since, events = before ++ selected :: since → selected.thread = i →
      selected.statement = some (.select k) → (∀ e ∈ since, e.thread ≠ i) →
      Vacant since (asText k)) ↔ users.rowsOf (asText k) = [] := by
  obtain ⟨before, selected, since, split, rfl, looked, others, vacant⟩ := lookedUp
  rw [← vacant]
  constructor
  · exact fun all => all before selected since split rfl looked others
  · intro free before' selected' since' split' thread looked' others'
    have same := last_of_thread (split'.symm.trans split) thread (by rwa [thread]) others
    rwa [same]

theorem uniqueIds_step {events : List Event} {now after : ThreadPool} {e : Event}
    (stepped : Stepped events now e after) (unique : now.world.users.UniqueIds) :
    after.world.users.UniqueIds ↔
      ∀ row, e.statement = some (.insert row) → now.world.users.rowsOf (asText row.id) = [] := by
  rw [stepped.users]
  cases executed : e.statement with
  | none => simpa using unique
  | some s =>
      have table : now.world.users.isSome ∨ ∀ row, s ≠ .insert row := by
        by_cases inserts : ∃ row, s = .insert row
        · obtain ⟨row, rfl⟩ := inserts
          exact .inl (stepped.event.inserts row executed).1
        · exact .inr fun row same => inserts ⟨row, same⟩
      rw [Option.elim_some]
      unfold Users.UniqueIds at unique ⊢
      simp only [rowsOf_execute s now.world.users _ table]
      cases s with
      | insert row =>
          simp only [Option.some.injEq, Statement.insert.injEq, forall_eq']
          constructor
          · intro all
            have one := all (asText row.id)
            simpa using one
          · intro vacant k
            by_cases same : asText row.id = k
            · subst same
              simp [vacant]
            · simpa [same] using unique k
      | delete id =>
          simp only [Option.some.injEq, reduceCtorEq, false_implies, implies_true, iff_true]
          intro k
          split
          · simp
          · exact unique k
      | _ => simpa using unique

theorem uniqueThroughout_iff (actions : List Action) :
    UniqueThroughout actions ↔ LookupsHold (trace actions) := by
  induction actions using List.reverseRecOn with
  | nil =>
      have initially : (pool []).world.users.UniqueIds := fun _ => Nat.zero_le _
      constructor
      · intro _ before selected since inserted rest row split
        simp [trace, history, eventsOf] at split
      · intro _ before after split
        rw [(List.append_eq_nil_iff.mp split.symm).1]
        exact initially
  | append_singleton actions a ih =>
      rw [uniqueThroughout_concat, ih]
      rcases schedule_step actions a with ⟨sameTrace, samePool⟩ | ⟨e, traced, stepped⟩
      · rw [sameTrace, samePool, and_iff_left_iff_imp, ← ih]
        exact fun unique => unique actions [] (by simp)
      · rw [traced, lookupsHold_concat, ← ih]
        refine and_congr_right fun unique => ?_
        rw [uniqueIds_step stepped (unique actions [] (by simp))]
        constructor
        · intro vacant before selected since row split thread looked inserted others
          have lookedUp := (stepped.event.inserts row inserted).2
          exact (vacant_of_lookedUp lookedUp).mpr (vacant row inserted)
            before selected since split thread looked others
        · intro holds row inserted
          have lookedUp := (stepped.event.inserts row inserted).2
          exact (vacant_of_lookedUp lookedUp).mp fun before selected since split thread looked others =>
            holds before selected since row split thread looked inserted others

/-! ## Registrations that return -/

theorem traced_registration (actions : List Action) :
    ∀ e ∈ trace actions, ∀ k result, e.Completes k result →
      (result = .ok .void ∧ ∃ row, e.statement = some (.insert row) ∧ asText row.id = k) ∨
      ∃ what, result = .error (AuthenticationException what) := by
  induction actions using List.reverseRecOn with
  | nil => simp [trace, history, eventsOf]
  | append_singleton actions a ih =>
      rcases schedule_step actions a with ⟨same, _⟩ | ⟨e, traced, stepped⟩
      · rwa [same]
      · intro x member k result completes
        rw [traced, List.mem_append, List.mem_singleton] at member
        rcases member with member | rfl
        · exact ih x member k result completes
        · obtain ⟨⟨u, pw, called, rfl⟩, returned⟩ := completes
          refine (stepped.event.registered u pw result called returned).imp_left ?_
          rintro ⟨done, row, inserted, name⟩
          exact ⟨done, row, inserted, congrArg asText name⟩

theorem inserts_of_completes {actions : List Action} {e : Event} (member : e ∈ trace actions)
    {k : StdString} {x : Value} (completes : e.Completes k (.ok x)) :
    ∃ row, e.statement = some (.insert row) ∧ asText row.id = k := by
  rcases traced_registration actions e member k _ completes with ⟨_, inserted⟩ | ⟨what, failed⟩
  · exact inserted
  · contradiction

theorem othersThrow (actions : List Action) : OthersThrow (trace actions) := by
  intro e member k fault completes
  rcases traced_registration actions e member k _ completes with ⟨returned, _⟩ | ⟨what, failed⟩
  · contradiction
  · exact ⟨what, by simpa using failed⟩

theorem deleted_of_change {events : List Event} {k : StdString} (dropped : Change.drop k ∈ changes events) :
    ∃ e ∈ events, e.Deletes k := by
  obtain ⟨e, member, change⟩ := List.mem_filterMap.mp dropped
  obtain ⟨s, executed, same⟩ := Option.bind_eq_some_iff.mp change
  refine ⟨e, member, ?_⟩
  cases s <;> simp_all [Statement.change, Event.Deletes]

theorem once_of_unique (actions : List Action) : UniqueThroughout actions → OncePerName (trace actions) := by
  induction actions using List.reverseRecOn with
  | nil =>
      intro _ first a mid b last k x y split
      simp [trace, history, eventsOf] at split
  | append_singleton actions action ih =>
      intro unique
      obtain ⟨earlier, now⟩ := (uniqueThroughout_concat actions action).mp unique
      rcases schedule_step actions action with ⟨same, _⟩ | ⟨e, traced, stepped⟩
      · rw [same]
        exact ih earlier
      · intro first a mid b last k x y split firstReturns secondReturns
        have members : a ∈ trace (actions ++ [action]) ∧ b ∈ trace (actions ++ [action]) := by
          simp [split]
        obtain ⟨row, inserted, rfl⟩ := inserts_of_completes members.1 firstReturns
        obtain ⟨row', inserted', same⟩ := inserts_of_completes members.2 secondReturns
        rw [traced] at split
        rcases concat_eq_append_cons.mp split with ⟨past, rfl, _⟩ | ⟨middle, _, past⟩
        · -- the second registration is the last step, so its name had no rows before it
          have vacant := (uniqueIds_step stepped (earlier actions [] (by simp))).mp now row' inserted'
          rw [same, ← (coherent actions).ledger, past] at vacant
          have put : changes (first ++ a :: mid) = changes first ++ .put (asText row.id) row.asTexts :: changes mid := by
            simp [changes, inserted, Statement.change]
          by_contra kept
          have filled : (Ledger.replay (changes first ++ .put (asText row.id) row.asTexts :: changes mid)
              (asText row.id)).isSome :=
            Ledger.replay_isSome fun dropped => kept (deleted_of_change dropped)
          rw [← put, vacant] at filled
          contradiction
        · exact ih earlier first a mid b middle _ x y past firstReturns secondReturns

theorem registersOncePerName_iff (actions : List Action) :
    RegistersOncePerName actions ↔ LookupsHold (trace actions) :=
  ⟨fun claim => (uniqueThroughout_iff actions).mp claim.unique, fun holds =>
    have unique := (uniqueThroughout_iff actions).mpr holds
    ⟨unique, once_of_unique actions unique, othersThrow actions⟩⟩

end

theorem registers_twice :
    ¬ RegistersOncePerName [.dispatch (.registerUser alice (lit "pw")),
      .dispatch (.registerUser alice (lit "new")), .advance 0, .advance 0, .advance 1, .advance 1,
      .advance 0, .advance 1] := by
  intro claim
  have rows := claim.unique _ [] (List.append_nil _).symm alice.ID
  revert rows
  decide

end SecureChat
