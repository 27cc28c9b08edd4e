import Mathlib.Data.List.Forall2
import SecureChat.Library.Mirror
import SecureChat.Server.Interleaving

/-!
# What becomes of a password

"Don't log passwords!" The server compares passwords and stores them, and does nothing else with
them: after any renaming of all passwords that keeps different ones different and cuts none in
another place, every schedule of requests takes the same course. Only the stored passwords are
renamed.
-/

namespace SecureChat
open Library Body

section
variable (f : StdString → StdString)

def Row.renamed (row : Row) : Row :=
  { row with pw := f row.pw }

def Users.renamed (users : Users) : Users :=
  users.map fun rows => rows.map (Row.renamed f)

def Statement.renamed : Statement → Statement
  | .insert row => .insert (row.renamed f)
  | s => s

def Request.renamed : Request → Request
  | .sql s => .sql (s.renamed f)
  | r => r

def Operation.renamed : Operation → Operation
  | .registerUser u pw => .registerUser u (f pw)
  | .login u pw callbackID con uuid => .login u (f pw) callbackID con uuid
  | .invoke uuid m => .invoke uuid m

def Action.renamed : Action → Action
  | .dispatch op => .dispatch (op.renamed f)
  | .advance i => .advance i

def World.renamed (w : World) : World :=
  w.setUsers (w.users.renamed f)

def Turn.renamed (turn : Turn) : Turn :=
  { turn with call := turn.call.renamed f, request := turn.request.map (Request.renamed f) }

/-- The reply to a renamed request. -/
def Request.carry : (r : Request) → r.Reply → (r.renamed f).Reply
  | .sql (.select _), fetched => fetched.map (Option.map (Row.renamed f))
  | .sql .createTable, done => done
  | .sql (.insert _), done => done
  | .sql (.delete _), done => done
  | .callbackForID _, answer => answer
  | .echo _ _, answer => answer
  | .exposeObject _, answer => answer
  | .setLoggedIn _, answer => answer
  | .info _, answer => answer

/-! ## Requests -/

section
variable [Storage] {f} (commutes : ∀ pw, asText (f pw) = f (asText pw))
include commutes

theorem Row.asTexts_renamed (row : Row) : (row.renamed f).asTexts = row.asTexts.renamed f := by
  simp [Row.asTexts, Row.renamed, commutes]

theorem execute_renamed (s : Statement) (users : Users) :
    (s.renamed f).execute (users.renamed f) = ((Request.sql s).carry f (s.execute users).1,
      (s.execute users).2.renamed f) := by
  cases users with
  | none => cases s <;> rfl
  | some rows =>
      cases s with
      | createTable => rfl
      | select id =>
          have fetched : ((rows.map (Row.renamed f)).find? (·.id = asText id)).map Row.asTexts =
              ((rows.find? (·.id = asText id)).map Row.asTexts).map (Row.renamed f) := by
            rw [List.find?_map, Option.map_map, Option.map_map]
            exact congrArg (Option.map · _) (funext (Row.asTexts_renamed commutes))
          exact Prod.ext (congrArg Except.ok fetched) rfl
      | insert row =>
          change (Except.ok (), some (rows.map (Row.renamed f) ++ [(row.renamed f).asTexts])) = _
          rw [Row.asTexts_renamed commutes, ← List.map_singleton, ← List.map_append]
          rfl
      | delete id =>
          change (Except.ok (), some ((rows.map (Row.renamed f)).filter (·.id ≠ asText id))) = _
          rw [List.filter_map]
          rfl

theorem answer_renamed (op : Operation) (r : Request) (w : World) :
    (op.renamed f).answer (r.renamed f) (w.renamed f) =
      (r.carry f (op.answer r w).1, (op.answer r w).2.renamed f) := by
  have uuid : (op.renamed f).uuid = op.uuid := by cases op <;> rfl
  have con : (op.renamed f).con = op.con := by cases op <;> rfl
  cases r with
  | sql s =>
      have executed := execute_renamed commutes s w.users
      have fetched := congrArg Prod.fst executed
      have users := congrArg (fun done => w.setUsers done.2) executed
      exact Prod.ext fetched users
  | callbackForID callbackID =>
      simp only [Operation.answer, Request.renamed, con]
      rfl
  | echo callbackID text =>
      simp only [Operation.answer, Request.renamed, con]
      rfl
  | exposeObject session =>
      simp only [Operation.answer, Request.renamed, uuid, World.renamed, World.setUsers_servants]
      split <;> rfl
  | setLoggedIn value =>
      simp only [Operation.answer, Request.renamed, uuid, World.renamed, World.setUsers_servants]
      rfl
  | info args => rfl

end

/-! ## Calls -/

abbrev Mirrored {α : Type} (b b' : Body α) : Prop :=
  Program.Mirrored (Request.renamed f) (Request.carry f) b b'

theorem mirrored_createUsers : Mirrored f createUsers createUsers := by
  refine .request (Request.sql .createTable) _ _ fun reply => ?_
  cases reply <;> exact .done _

theorem mirrored_insertUser (row : Row) : Mirrored f (insertUser row) (insertUser (row.renamed f)) := by
  refine .request (Request.sql (.insert row)) _ _ fun reply => ?_
  cases reply <;> exact .done _

theorem mirrored_selectUser {α : Type} {id : StdString} {g g' : Option Row → Body α}
    (rest : ∀ found, Mirrored f (g found) (g' (found.map (Row.renamed f)))) :
    Mirrored f (selectUser id >>= g) (selectUser id >>= g') := by
  refine .request (Request.sql (.select id)) _ _ fun reply => ?_
  cases reply with
  | ok found => exact rest found
  | error e => exact .done _

/-- Whatever neither reads nor writes a row mirrors itself. -/
theorem mirrors_self {α : Type} {p : Program Request Request.Reply α}
    (avoids : p.Avoids fun r => (∃ id, r = .sql (.select id)) ∨ ∃ row, r = .sql (.insert row)) :
    Program.Mirrors (Request.renamed f) (Request.carry f) p p := by
  induction p with
  | done value => exact .done value
  | request r next ih =>
      cases r with
      | sql s =>
          cases s with
          | select id => exact absurd (.inl ⟨id, rfl⟩) avoids.1
          | insert row => exact absurd (.inr ⟨row, rfl⟩) avoids.1
          | _ =>
              refine .request _ _ _ fun reply => ?_
              exact ih reply (avoids.2 reply)
      | _ =>
          refine .request _ _ _ fun reply => ?_
          exact ih reply (avoids.2 reply)

theorem mirrored_registerUser (u : User) (pw : StdString) :
    Mirrored f (AuthenticationImpl.registerUser u pw) (AuthenticationImpl.registerUser u (f pw)) := by
  refine Program.mirrored_bind (mirrored_createUsers f) fun _ => ?_
  refine mirrored_selectUser f fun found => ?_
  cases found with
  | some row => exact Program.mirrored_throw _
  | none =>
      refine Program.mirrored_bind (mirrored_insertUser f ⟨key u.ID, pw, u.publicKey.toStdString⟩) fun _ => ?_
      exact .request (Request.info _) _ _ fun _ => .done _

variable {f}

theorem mirrored_login (injective : Function.Injective f) (u : User) (pw : StdString) (callbackID : Identity) :
    Mirrored f (AuthenticationImpl.login u pw callbackID) (AuthenticationImpl.login u (f pw) callbackID) := by
  have verified (found : Option Row) : Mirrored f (verifyRest u pw callbackID found)
      (verifyRest u (f pw) callbackID (found.map (Row.renamed f))) := by
    -- the renaming is invisible in the only comparison of a password
    have same : verifyRest u (f pw) callbackID (found.map (Row.renamed f)) = verifyRest u pw callbackID found := by
      cases found with
      | none => rfl
      | some stored =>
          by_cases wrong : pw ≠ stored.pw
          · exact (if_pos (injective.ne wrong)).trans (if_pos wrong).symm
          · exact (if_neg (not_not.mpr (congrArg f (not_not.mp wrong)))).trans (if_neg wrong).symm
    rw [same]
    exact mirrors_self f (spares_verifyRest (by simp) (by simp) (by simp) (by simp) u pw callbackID found)
  exact Program.mirrored_bind (mirrored_createUsers f) fun _ => mirrored_selectUser f verified

theorem body_renamed (injective : Function.Injective f) (op : Operation) (w : World) :
    Mirrored f (op.body w) ((op.renamed f).body (w.renamed f)) := by
  cases op with
  | registerUser u pw =>
      exact Program.mirrored_bind (mirrored_registerUser f u pw) fun _ => Program.mirrored_pure _
  | login u pw callbackID con uuid =>
      exact Program.mirrored_bind (mirrored_login injective u pw callbackID) fun _ => Program.mirrored_pure _
  | invoke uuid m =>
      simp only [Operation.renamed, Operation.body, World.renamed, World.setUsers_servants]
      cases w.servants uuid with
      | none => exact Program.mirrored_throw _
      | some session => exact mirrors_self f (spares_method (by simp) (by simp) (by simp) session m)

/-! ## Schedules -/

variable (f) in
/-- A thread of the schedule with renamed passwords. -/
structure Twin (t twin : Thread) : Prop where
  call : twin.call = t.call.renamed f
  rest : Program.Mirrors (Request.renamed f) (Request.carry f) t.rest twin.rest

variable (f) in
structure Twins (now twins : ThreadPool) : Prop where
  world : twins.world = now.world.renamed f
  threads : List.Forall₂ (Twin f) now.threads twins.threads

private theorem forall₂_getElem? {α β : Type} {alike : α → β → Prop} {xs : List α} {ys : List β}
    (all : List.Forall₂ alike xs ys) (i : Nat) : (xs[i]? = none ∧ ys[i]? = none) ∨
      ∃ x y, xs[i]? = some x ∧ ys[i]? = some y ∧ alike x y ∧
        ∀ x' y', alike x' y' → List.Forall₂ alike (xs.set i x') (ys.set i y') := by
  induction all generalizing i with
  | nil => exact .inl ⟨rfl, rfl⟩
  | cons first rest ih =>
      cases i with
      | zero => exact .inr ⟨_, _, rfl, rfl, first, fun x' y' next => .cons next rest⟩
      | succ i =>
          rcases ih i with none | ⟨x, y, here, there, now, set⟩
          · exact .inl none
          · exact .inr ⟨x, y, here, there, now, fun x' y' next => .cons first (set x' y' next)⟩

section
variable [Storage] (injective : Function.Injective f) (commutes : ∀ pw, asText (f pw) = f (asText pw))
include injective commutes

theorem Twins.turn {now twins : ThreadPool} (alike : Twins f now twins)
    (a : Action) : (ThreadPool.turn (a.renamed f) twins).1 = (ThreadPool.turn a now).1.map (Turn.renamed f) ∧
      Twins f (ThreadPool.turn a now).2 (ThreadPool.turn (a.renamed f) twins).2 := by
  obtain ⟨world, threads⟩ := alike
  cases a with
  | dispatch op =>
      have started := body_renamed injective op now.world
      rw [← world] at started
      constructor
      · simp only [ThreadPool.turn, Action.renamed, Option.map_some, Turn.renamed, Option.map_none,
          threads.length_eq, Program.Mirrors.value started]
      · exact ⟨world, List.rel_append threads (.cons ⟨rfl, started⟩ .nil)⟩
  | advance i =>
      rcases forall₂_getElem? threads i with ⟨here, there⟩ | ⟨t, twin, here, there, ⟨call, rest⟩, set⟩
      · simp only [ThreadPool.turn, Action.renamed, here, there, Option.map_none, true_and]
        exact ⟨world, threads⟩
      · rcases t with ⟨op, p⟩
        rcases twin with ⟨op', p'⟩
        subst call
        cases rest with
        | done value =>
            simp only [ThreadPool.turn, Action.renamed, here, there, Option.map_none, true_and]
            exact ⟨world, threads⟩
        | request r next next' mirrors =>
            have answered := answer_renamed commutes op r now.world
            rw [← world] at answered
            rw [turn_advance here, Action.renamed, turn_advance there, answered]
            constructor
            · rw [Option.map_some, Program.Mirrors.value (mirrors _)]
              rfl
            · exact ⟨rfl, set _ _ ⟨rfl, mirrors _⟩⟩

/-- A renaming of the passwords that keeps different ones different, and renames what the database
keeps of a password as it keeps the renamed one, changes nothing else: threads make the same
requests in the same order and return the same results, whatever the schedule. -/
theorem passwords_renamed (actions : List Action) :
    (turns (actions.map (Action.renamed f))).map Moment.output =
      (turns actions).map (fun m => m.output.map (Turn.renamed f)) ∧
    (interleaving (actions.map (Action.renamed f))).world = (interleaving actions).world.renamed f := by
  have both : (turns (actions.map (Action.renamed f))).map Moment.output =
        (turns actions).map (fun m => m.output.map (Turn.renamed f)) ∧
      Twins f (interleaving actions) (interleaving (actions.map (Action.renamed f))) := by
    induction actions using List.reverseRecOn with
    | nil => exact ⟨rfl, ⟨rfl, .nil⟩⟩
    | append_singleton actions a ih =>
        obtain ⟨outputs, alike⟩ := ih
        obtain ⟨output, after⟩ := alike.turn injective commutes a
        rw [List.map_append, List.map_singleton, turns_concat, turns_concat, List.map_append, List.map_append,
          outputs, interleaving_concat, interleaving_concat]
        refine ⟨?_, after⟩
        simp only [List.map_singleton, moment, output]
  exact ⟨both.1, both.2.world⟩

end

theorem lateExposure_renamed :
    (turns (lateExposure.map (Action.renamed (List.map Neg.neg)))).map Moment.output =
      (turns lateExposure).map (fun m => m.output.map (Turn.renamed (List.map Neg.neg))) ∧
    (interleaving (lateExposure.map (Action.renamed (List.map Neg.neg)))).world =
      (interleaving lateExposure).world.renamed (List.map Neg.neg) :=
  have zero (b : Int8) : -b = 0 ↔ b = 0 := Int8.neg_inj (b := 0)
  passwords_renamed (List.map_injective_iff.mpr fun _ _ => Int8.neg_inj.mp)
    (fun pw => by simp [Storage.asText, List.takeWhile_map, Function.comp_def, zero]) lateExposure

end
end SecureChat
