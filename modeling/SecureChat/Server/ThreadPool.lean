import SecureChat.Server.Effects

/-!
# The server handling calls at the same time

Calls are dispatched to the threads of a pool. Every SQL statement is atomic, and a call that is
answered by several of them can be interrupted between any two: no transaction is opened. A step
dispatches a call or lets a thread execute its next statement; a call returns with its last one.
-/

namespace SecureChat
open Library

def Request.statement : Request → Option Statement
  | .sql s => some s
  | _ => none

abbrev Request.isStatement (r : Request) : Bool := r.statement.isSome

structure Thread where
  call : Operation
  rest : Program Request Request.Reply Result

structure ThreadPool where
  world : World
  threads : List Thread

/-- One step of a thread: the statement it executed and the result if it has returned. -/
structure Event where
  thread : Nat
  call : Operation
  statement : Option Statement
  returned : Option Result

inductive Action where
  | dispatch (op : Operation)
  | advance (thread : Nat)

section
variable [Storage]

namespace ThreadPool

def act : Action → ThreadPool → Option Event × ThreadPool
  | .dispatch op, pool =>
      let started := (op.body pool.world).run.settle op.answer Request.isStatement pool.world
      (some ⟨pool.threads.length, op, none, started.1.value?⟩,
        ⟨started.2, pool.threads ++ [⟨op, started.1⟩]⟩)
  | .advance i, pool =>
      match pool.threads[i]? with
      | some ⟨call, .request r next⟩ =>
          let moved := (Program.request r next).advance call.answer Request.isStatement pool.world
          (some ⟨i, call, r.statement, moved.1.value?⟩, ⟨moved.2, pool.threads.set i ⟨call, moved.1⟩⟩)
      | _ => (none, pool)

def start : ThreadPool := ⟨.empty, []⟩

end ThreadPool

abbrev pool (actions : List Action) : ThreadPool := final ThreadPool.act .start actions

def eventsOf (h : List (Moment ThreadPool Action (Option Event))) : List Event :=
  h.filterMap Moment.output

def trace (actions : List Action) : List Event :=
  eventsOf (history ThreadPool.act .start actions)

/-! ## Calls that nothing interrupts -/

theorem advance_last (w : World) (threads : List Thread) (op : Operation) (n : Nat)
    (now : Program Request Request.Reply Result × World) (same : now.2 = w) :
    final ThreadPool.act ⟨w, threads ++ [⟨op, now.1⟩]⟩ (List.replicate n (.advance threads.length)) =
      let ended := (fun now => now.1.advance op.answer Request.isStatement now.2)^[n] now
      ⟨ended.2, threads ++ [⟨op, ended.1⟩]⟩ := by
  induction n generalizing w now with
  | zero => simp [final, same]
  | succ n ih =>
      rw [List.replicate_succ, final, Function.iterate_succ_apply, ← ih _ _ rfl]
      congr 1
      rcases now with ⟨_ | _, after⟩ <;> subst same <;> simp [ThreadPool.act, Program.advance]

/-- A call that is dispatched and advanced without another one in between does what `perform` does. -/
theorem uninterrupted (op : Operation) (now : ThreadPool) :
    ∃ n, final ThreadPool.act now (.dispatch op :: List.replicate n (.advance now.threads.length)) =
      ⟨(perform op now.world).2, now.threads ++ [⟨op, .done (perform op now.world).1⟩]⟩ := by
  obtain ⟨n, ended⟩ := Program.advance_to_end op.answer Request.isStatement (op.body now.world).run now.world
  refine ⟨n, ?_⟩
  rw [final, ThreadPool.act, advance_last _ _ _ _ _ rfl, ended]
  rfl

end
end SecureChat
