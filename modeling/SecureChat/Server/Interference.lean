import SecureChat.Library.Guarantee
import SecureChat.Server.Interleaving

/-!
# What a call can rely on

Between two requests of a call the other threads go on. A call can rely on the run growing, and on
the table staying once it has been created; what it does in return is stated for any run of which
its own turns are a part.
-/

namespace SecureChat
open Library Library.Program Body

variable [Storage]

/-- The run so far and the world at its end. -/
structure Instant where
  past : List Action
  world : World

namespace Instant

def at_ (past : List Action) : Instant := ⟨past, (interleaving past).world⟩

/-- The world is the one at the end of the run so far. -/
def Coherent (s : Instant) : Prop := s.world = (interleaving s.past).world

/-- What the other threads do until the next turn of a thread, in a run with these actions. -/
structure Leads (actions : List Action) (s t : Instant) : Prop where
  grows : s.past <+: t.past
  within : t.past <+: actions
  earlier : s.Coherent
  world : t.Coherent
  table : s.world.users.isSome → t.world.users.isSome

/-- The answer to the `i`th thread. -/
def answer (op : Operation) (i : Nat) (r : Request) (s : Instant) : r.Reply × Instant :=
  ((op.answer r s.world).1, ⟨s.past ++ [.advance i], (op.answer r s.world).2⟩)

theorem Leads.trans {actions : List Action} {s t u : Instant} (first : Leads actions s t) (second : Leads actions t u) :
    Leads actions s u :=
  ⟨first.grows.trans second.grows, second.within, first.earlier, second.world, second.table ∘ first.table⟩

end Instant

/-! ## Every call meets its contract -/

/-- A request of a turn is allowed after what has happened until then. -/
def AllowedBy (allows : Nat → Operation → Request → Instant → Prop) (past : List Action) (a : Action) : Prop :=
  ∀ turn r, (ThreadPool.turn a (interleaving past)).1 = some turn → turn.request = some r →
    allows turn.thread turn.call r (.at_ past)

theorem answer_table {op : Operation} {w : World} (r : Request) (table : w.users.isSome) :
    (op.answer r w).2.users.isSome := by
  cases r with
  | sql s => exact execute_isSome table s
  | exposeObject session =>
      simp only [Operation.answer]
      split <;> exact table
  | _ => exact table

theorem idle_or_asks (i : Nat) (now : ThreadPool) :
    ThreadPool.turn (.advance i) now = (none, now) ∨
      ∃ call r next, now.threads[i]? = some ⟨call, .request r next⟩ := by
  match found : now.threads[i]? with
  | some ⟨call, .request r next⟩ => exact .inr ⟨call, r, next, rfl⟩
  | some ⟨call, .done result⟩ => exact .inl (by simp only [ThreadPool.turn, found])
  | none => exact .inl (by simp only [ThreadPool.turn, found])

theorem turn_table {a : Action} {now : ThreadPool} (table : now.world.users.isSome) :
    (ThreadPool.turn a now).2.world.users.isSome := by
  cases a with
  | dispatch op => exact table
  | advance i =>
      rcases idle_or_asks i now with idle | ⟨call, r, next, found⟩
      · rw [idle]
        exact table
      · rw [turn_advance found]
        exact answer_table r table

section
variable (allows : Nat → Operation → Request → Instant → Prop)
  (ends : Nat → Operation → Result → List Action → Prop)

/-- A thread meets its contract from here on. -/
def Thread.Meets (actions : List Action) (i : Nat) (t : Thread) (s : Instant) : Prop :=
  t.rest.Meets (Instant.answer t.call i) (Instant.Leads actions) (allows i t.call)
    (fun result s => s.Coherent → ends i t.call result s.past) s

/-- How a call has ended does not change by what happens later. -/
def Stable : Prop :=
  ∀ i op result past later, past <+: later → ends i op result past → ends i op result later

variable {allows ends} {actions : List Action}

private theorem leads_turn {past : List Action} {a : Action} (within : past ++ [a] <+: actions) :
    Instant.Leads actions (.at_ past) (.at_ (past ++ [a])) := by
  refine ⟨List.prefix_append _ _, within, rfl, rfl, fun table => ?_⟩
  rw [Instant.at_, interleaving_concat]
  exact turn_table table

private theorem meets_later (stable : Stable ends) {past : List Action} {a : Action} (within : past ++ [a] <+: actions)
    {i : Nat} {t : Thread} (meets : t.Meets allows ends actions i (.at_ past)) :
    t.Meets allows ends actions i (.at_ (past ++ [a])) := by
  refine Program.Meets.interfered (fun _ _ _ first second => first.trans second) ?_ meets (leads_turn within)
  exact fun result s t leads right _ => stable i _ result s.past t.past leads.grows (right leads.earlier)

private theorem meets_turn (stable : Stable ends) {past : List Action} {i : Nat} (within : past ++ [.advance i] <+: actions)
    (meets : ∀ (j : Nat) (t : Thread), (interleaving past).threads[j]? = some t → t.Meets allows ends actions j (.at_ past)) :
    AllowedBy allows past (.advance i) ∧ ∀ (j : Nat) (t : Thread), (interleaving (past ++ [.advance i])).threads[j]? = some t →
      t.Meets allows ends actions j (.at_ (past ++ [.advance i])) := by
  rcases idle_or_asks i (interleaving past) with idle | ⟨call, r, next, found⟩
  · refine ⟨fun turn r output => by simp [idle] at output, fun j t there => ?_⟩
    rw [interleaving_concat, idle] at there
    exact meets_later stable within (meets j t there)
  · have turned := turn_advance found
    have after := interleaving_concat past (.advance i)
    rw [turned] at after
    obtain ⟨allowed, rest⟩ := meets i _ found (.at_ past)
      ⟨List.prefix_rfl, (List.prefix_append _ _).trans within, rfl, rfl, id⟩
    refine ⟨fun turn r' output request => ?_, fun j t there => ?_⟩
    · rw [turned] at output
      obtain rfl := Option.some.inj output
      obtain rfl := Option.some.inj request
      exact allowed
    · by_cases here : j = i
      · subst here
        rw [after, List.getElem?_set_self (List.getElem?_eq_some_iff.mp found).1] at there
        obtain rfl := Option.some.inj there
        rw [Instant.at_, after]
        exact rest
      · rw [after, List.getElem?_set_ne (Ne.symm here)] at there
        exact meets_later stable within (meets j t there)

private theorem meets_dispatch (stable : Stable ends) {past : List Action} {op : Operation} (within : past ++ [.dispatch op] <+: actions)
    (meets : ∀ (j : Nat) (t : Thread), (interleaving past).threads[j]? = some t → t.Meets allows ends actions j (.at_ past))
    (started : Thread.Meets allows ends actions (interleaving past).threads.length
      ⟨op, (op.body (interleaving past).world).run⟩ (.at_ (past ++ [.dispatch op]))) :
    ∀ (j : Nat) (t : Thread), (interleaving (past ++ [.dispatch op])).threads[j]? = some t →
      t.Meets allows ends actions j (.at_ (past ++ [.dispatch op])) := by
  intro j t there
  rw [interleaving_concat] at there
  rcases Nat.lt_trichotomy j (interleaving past).threads.length with before | same | beyond
  · refine meets_later stable within (meets j t ?_)
    rwa [ThreadPool.turn, List.getElem?_append_left before] at there
  · subst same
    simp only [ThreadPool.turn, List.getElem?_concat_length, Option.some.injEq] at there
    subst there
    exact started
  · rw [ThreadPool.turn, List.getElem?_eq_none (by simpa [Nat.succ_le_iff] using beyond)] at there
    contradiction

/-- If every call meets its contract from its start, whatever has been done until then as allowed,
then in every run only what is allowed is done, and every result is right. -/
theorem interference_rule (stable : Stable ends) (actions : List Action)
    (calls : ∀ past op, past ++ [.dispatch op] <+: actions → Throughout (AllowedBy allows) past →
      Thread.Meets allows ends actions (interleaving past).threads.length
        ⟨op, (op.body (interleaving past).world).run⟩ (.at_ (past ++ [.dispatch op]))) :
    Throughout (AllowedBy allows) actions ∧
      ∀ (i : Nat) (t : Thread), (interleaving actions).threads[i]? = some t →
        ∀ result, t.rest.value? = some result → ends i t.call result actions := by
  have all (past : List Action) (within : past <+: actions) : Throughout (AllowedBy allows) past ∧
      ∀ (i : Nat) (t : Thread), (interleaving past).threads[i]? = some t → t.Meets allows ends actions i (.at_ past) := by
    induction past using List.reverseRecOn with
    | nil => exact ⟨throughout_nil _, by simp [interleaving, final, ThreadPool.start]⟩
    | append_singleton past a ih =>
        obtain ⟨allowed, meets⟩ := ih ((List.prefix_append _ _).trans within)
        cases a with
        | dispatch op =>
            refine ⟨throughout_concat.mpr ⟨allowed, ?_⟩, meets_dispatch stable within meets (calls past op within allowed)⟩
            rintro turn r ⟨⟩ request
            contradiction
        | advance i =>
            obtain ⟨now, later⟩ := meets_turn stable within meets
            exact ⟨throughout_concat.mpr ⟨allowed, now⟩, later⟩
  obtain ⟨allowed, meets⟩ := all actions List.prefix_rfl
  refine ⟨allowed, fun i t found result returned => ?_⟩
  have right := meets i t found
  rcases t with ⟨call, value | ⟨r, next⟩⟩
  · obtain rfl := Option.some.inj returned
    exact right rfl
  · contradiction

end
end SecureChat
