import Mathlib.Logic.Function.Iterate

/-!
# Programs that question their environment

A `Program` is a tree of requests: each request waits for the environment's typed reply and goes
on from there. One tree has two readings: `run` answers every request at once, which is a call
that nothing disturbs, and `advance` answers one request at a time, which lets other programs act
on the shared state in between.
-/

namespace SecureChat.Library

inductive Program (Op : Type) (Reply : Op → Type) (α : Type) where
  | done (value : α)
  | request (op : Op) (next : Reply op → Program Op Reply α)

namespace Program
variable {Op : Type} {Reply : Op → Type} {α β ε σ : Type}

def bind : Program Op Reply α → (α → Program Op Reply β) → Program Op Reply β
  | .done value, f => f value
  | .request op next, f => .request op fun reply => (next reply).bind f

instance : Monad (Program Op Reply) where
  pure := .done
  bind := .bind

instance : LawfulMonad (Program Op Reply) := LawfulMonad.mk' _
  (fun p => by
    induction p with
    | done value => rfl
    | request op next ih => exact congrArg (Program.request op) (funext ih))
  (fun _ _ => rfl)
  (fun p f g => by
    induction p with
    | done value => rfl
    | request op next ih => exact congrArg (Program.request op) (funext ih))

def ask (op : Op) : Program Op Reply (Reply op) :=
  .request op .done

/-! ## Answering every request -/

def run (answer : (op : Op) → σ → Reply op × σ) : Program Op Reply α → σ → α × σ
  | .done value, s => (value, s)
  | .request op next, s => (next (answer op s).1).run answer (answer op s).2

variable (answer : (op : Op) → σ → Reply op × σ)

theorem run_bind (p : Program Op Reply α) (f : α → Program Op Reply β) (s : σ) :
    (p.bind f).run answer s = (f (p.run answer s).1).run answer (p.run answer s).2 := by
  induction p generalizing s with
  | done value => rfl
  | request op next ih => exact ih _ _

def exec (p : ExceptT ε (Program Op Reply) α) (s : σ) : Except ε α × σ :=
  p.run.run answer s

@[simp] theorem exec_pure (value : α) (s : σ) :
    exec answer (pure value : ExceptT ε (Program Op Reply) α) s = (.ok value, s) := rfl

@[simp] theorem exec_throw (e : ε) (s : σ) :
    exec answer (throw e : ExceptT ε (Program Op Reply) α) s = (.error e, s) := rfl

@[simp] theorem exec_ask (op : Op) (s : σ) :
    exec answer (ExceptT.lift (ask op) : ExceptT ε (Program Op Reply) (Reply op)) s =
      (.ok (answer op s).1, (answer op s).2) := rfl

@[simp] theorem exec_bind (p : ExceptT ε (Program Op Reply) α)
    (f : α → ExceptT ε (Program Op Reply) β) (s : σ) :
    exec answer (p >>= f) s = match exec answer p s with
      | (.ok value, after) => exec answer (f value) after
      | (.error e, after) => (.error e, after) := by
  have split := run_bind answer p.run (ExceptT.bindCont f) s
  rcases ended : p.run.run answer s with ⟨_ | _, after⟩ <;> simp only [ended] at split <;>
    simp only [exec, ended] <;> exact split

@[simp] theorem exec_map (f : α → β) (p : ExceptT ε (Program Op Reply) α) (s : σ) :
    exec answer (f <$> p) s = match exec answer p s with
      | (.ok value, after) => (.ok (f value), after)
      | (.error e, after) => (.error e, after) := by
  rw [← bind_pure_comp, exec_bind]
  rfl

@[simp] theorem exec_tryCatch (p : ExceptT ε (Program Op Reply) α)
    (handle : ε → ExceptT ε (Program Op Reply) α) (s : σ) :
    exec answer (tryCatch p handle) s = match exec answer p s with
      | (.ok value, after) => (.ok value, after)
      | (.error e, after) => exec answer (handle e) after := by
  change run answer (Program.bind p.run _) s = _
  rw [run_bind]
  rcases ended : p.run.run answer s with ⟨_ | _, after⟩ <;> simp only [exec, ended] <;> rfl

/-! ## The requests of a run -/

/-- The requests that are made when all of them are answered, in their order. -/
def requests : Program Op Reply α → σ → List Op
  | .done _, _ => []
  | .request op next, s => op :: (next (answer op s).1).requests (answer op s).2

theorem requests_bind (p : Program Op Reply α) (f : α → Program Op Reply β) (s : σ) :
    (p.bind f).requests answer s =
      p.requests answer s ++ (f (p.run answer s).1).requests answer (p.run answer s).2 := by
  induction p generalizing s with
  | done value => rfl
  | request op next ih => exact congrArg (op :: ·) (ih _ _)

def made (p : ExceptT ε (Program Op Reply) α) (s : σ) : List Op :=
  p.run.requests answer s

@[simp] theorem made_pure (value : α) (s : σ) :
    made answer (pure value : ExceptT ε (Program Op Reply) α) s = [] := rfl

@[simp] theorem made_throw (e : ε) (s : σ) :
    made answer (throw e : ExceptT ε (Program Op Reply) α) s = [] := rfl

@[simp] theorem made_ask (op : Op) (s : σ) :
    made answer (ExceptT.lift (ask op) : ExceptT ε (Program Op Reply) (Reply op)) s = [op] := rfl

@[simp] theorem made_bind (p : ExceptT ε (Program Op Reply) α)
    (f : α → ExceptT ε (Program Op Reply) β) (s : σ) :
    made answer (p >>= f) s = made answer p s ++ match exec answer p s with
      | (.ok value, after) => made answer (f value) after
      | (.error _, _) => [] := by
  have split := requests_bind answer p.run (ExceptT.bindCont f) s
  rcases ended : p.run.run answer s with ⟨_ | _, after⟩ <;> simp only [ended] at split <;>
    simp only [exec, made, ended] <;> exact split

@[simp] theorem made_map (f : α → β) (p : ExceptT ε (Program Op Reply) α) (s : σ) :
    made answer (f <$> p) s = made answer p s := by
  rw [← bind_pure_comp, made_bind]
  rcases exec answer p s with ⟨_ | _, after⟩ <;> exact List.append_nil _

/-! ## Answering one request at a time -/

def value? : Program Op Reply α → Option α
  | .done value => some value
  | .request _ _ => none

section
variable (visible : Op → Bool)

/-- Answers the requests up to the first visible one. -/
def settle : Program Op Reply α → σ → Program Op Reply α × σ
  | .done value, s => (.done value, s)
  | .request op next, s =>
      if visible op then (.request op next, s) else (next (answer op s).1).settle (answer op s).2

def advance : Program Op Reply α → σ → Program Op Reply α × σ
  | .done value, s => (.done value, s)
  | .request op next, s => (next (answer op s).1).settle answer visible (answer op s).2

theorem settle_keeps {τ : Type} (view : σ → τ)
    (keeps : ∀ op s, visible op = false → view (answer op s).2 = view s) (p : Program Op Reply α) (s : σ) :
    view (p.settle answer visible s).2 = view s := by
  induction p generalizing s with
  | done value => rfl
  | request op next ih =>
      by_cases seen : visible op
      · simp [settle, seen]
      · simpa [settle, seen] using (ih _ _).trans (keeps op s (by simpa using seen))

theorem advance_to_end (p : Program Op Reply α) (s : σ) :
    ∃ n, (fun now => now.1.advance answer visible now.2)^[n] (p.settle answer visible s) =
      (.done (p.run answer s).1, (p.run answer s).2) := by
  induction p generalizing s with
  | done value => exact ⟨0, rfl⟩
  | request op next ih =>
      obtain ⟨n, ended⟩ := ih (answer op s).1 (answer op s).2
      by_cases seen : visible op
      · exact ⟨n + 1, by simpa [settle, seen, advance, run] using ended⟩
      · exact ⟨n, by simpa [settle, seen, run] using ended⟩

theorem run_settle (p : Program Op Reply α) (s : σ) :
    (p.settle answer visible s).1.run answer (p.settle answer visible s).2 = p.run answer s := by
  induction p generalizing s with
  | done value => rfl
  | request op next ih =>
      by_cases seen : visible op
      · simp [settle, seen]
      · simpa [settle, seen, run] using ih _ _

end

/-! ## Programs that avoid some requests -/

def Avoids (bad : Op → Prop) : Program Op Reply α → Prop
  | .done _ => True
  | .request op next => ¬ bad op ∧ ∀ reply, (next reply).Avoids bad

variable {bad : Op → Prop}

theorem Avoids.bind {p : Program Op Reply α} {f : α → Program Op Reply β} (first : p.Avoids bad)
    (rest : ∀ value, (f value).Avoids bad) : (p.bind f).Avoids bad := by
  induction p with
  | done value => exact rest value
  | request op next ih => exact ⟨first.1, fun reply => ih reply (first.2 reply)⟩

theorem Avoids.settle {p : Program Op Reply α} (avoids : p.Avoids bad) (visible : Op → Bool) (s : σ) :
    (p.settle answer visible s).1.Avoids bad := by
  induction p generalizing s with
  | done value => trivial
  | request op next ih =>
      by_cases seen : visible op
      · simpa [Program.settle, seen] using avoids
      · simpa [Program.settle, seen] using ih _ (avoids.2 _) _

theorem settle_of_avoids {visible : Op → Bool} {p : Program Op Reply α} (avoids : p.Avoids (visible · = true))
    (s : σ) : p.settle answer visible s = (.done (p.run answer s).1, (p.run answer s).2) := by
  induction p generalizing s with
  | done value => rfl
  | request op next ih => simpa [Program.settle, avoids.1, run] using ih _ (avoids.2 _) _

theorem Avoids.settle_keeps {τ : Type} {p : Program Op Reply α} (avoids : p.Avoids bad) (visible : Op → Bool)
    (view : σ → τ) (keeps : ∀ op s, ¬ bad op → view (answer op s).2 = view s) (s : σ) :
    view (p.settle answer visible s).2 = view s := by
  induction p generalizing s with
  | done value => rfl
  | request op next ih =>
      by_cases seen : visible op
      · simp [Program.settle, seen]
      · simpa [Program.settle, seen] using (ih _ (avoids.2 _) _).trans (keeps op s avoids.1)

/-- A program settles alike in states that its requests cannot tell apart. -/
theorem Avoids.settle_congr {p : Program Op Reply α} (avoids : p.Avoids bad) (visible : Op → Bool)
    (alike : σ → σ → Prop) (keeps : ∀ op s t, visible op = false → ¬ bad op → alike s t →
      (answer op s).1 = (answer op t).1 ∧ alike (answer op s).2 (answer op t).2) {s t : σ} (now : alike s t) :
    (p.settle answer visible s).1 = (p.settle answer visible t).1 ∧
      alike (p.settle answer visible s).2 (p.settle answer visible t).2 := by
  induction p generalizing s t with
  | done value => exact ⟨rfl, now⟩
  | request op next ih =>
      by_cases seen : visible op
      · simpa [Program.settle, seen] using now
      · obtain ⟨reply, after⟩ := keeps op s t (by simpa using seen) avoids.1 now
        simpa [Program.settle, seen, reply] using ih _ (avoids.2 _) after

theorem avoids_nothing (p : Program Op Reply α) : p.Avoids fun _ => False := by
  induction p with
  | done value => trivial
  | request op next ih => exact ⟨id, ih⟩

def Spares (bad : Op → Prop) (p : ExceptT ε (Program Op Reply) α) : Prop :=
  Avoids bad p.run

theorem spares_pure (value : α) : Spares bad (pure value : ExceptT ε (Program Op Reply) α) := trivial

theorem spares_throw (e : ε) : Spares bad (throw e : ExceptT ε (Program Op Reply) α) := trivial

theorem spares_ask {op : Op} (good : ¬ bad op) :
    Spares bad (ExceptT.lift (ask op) : ExceptT ε (Program Op Reply) (Reply op)) :=
  ⟨good, fun _ => trivial⟩

theorem spares_bind {p : ExceptT ε (Program Op Reply) α} {f : α → ExceptT ε (Program Op Reply) β}
    (first : Spares bad p) (rest : ∀ value, Spares bad (f value)) : Spares bad (p >>= f) := by
  refine Avoids.bind first fun ended => ?_
  cases ended with
  | ok value => exact rest value
  | error e => trivial

theorem spares_tryCatch {p : ExceptT ε (Program Op Reply) α} {handle : ε → ExceptT ε (Program Op Reply) α}
    (first : Spares bad p) (rest : ∀ e, Spares bad (handle e)) : Spares bad (tryCatch p handle) := by
  refine Avoids.bind first fun ended => ?_
  cases ended with
  | ok value => trivial
  | error e => exact rest e

end Program
end SecureChat.Library
