import SecureChat.Library.Program

/-!
# Methods of an object

A method works on the fields of its object, makes requests and may throw. What it did to the
fields and to the environment before it threw stays done.
-/

namespace SecureChat.Library

abbrev Method (Op : Type) (Reply : Op → Type) (σ ε : Type) :=
  ExceptT ε (StateT σ (Program Op Reply))

namespace Method
variable {Op : Type} {Reply : Op → Type} {σ ε τ α β : Type}

def ask (op : Op) : Method Op Reply σ ε (Reply op) :=
  ExceptT.lift (StateT.lift (Program.ask op))

variable (answer : (op : Op) → τ → Reply op × τ)

def exec (m : Method Op Reply σ ε α) (self : σ) (world : τ) : Except ε α × σ × τ :=
  let ended := (m.run.run self).run answer world
  (ended.1.1, ended.1.2, ended.2)

variable (self : σ) (world : τ)

@[simp] theorem exec_pure (value : α) :
    exec answer (pure value : Method Op Reply σ ε α) self world = (.ok value, self, world) := rfl

@[simp] theorem exec_throw (e : ε) :
    exec answer (throw e : Method Op Reply σ ε α) self world = (.error e, self, world) := rfl

@[simp] theorem exec_get :
    exec answer (get : Method Op Reply σ ε σ) self world = (.ok self, self, world) := rfl

@[simp] theorem exec_modify (f : σ → σ) :
    exec answer (modify f : Method Op Reply σ ε PUnit) self world = (.ok ⟨⟩, f self, world) := rfl

@[simp] theorem exec_ask (op : Op) : exec answer (ask op : Method Op Reply σ ε (Reply op)) self world =
    (.ok (answer op world).1, self, (answer op world).2) := rfl

@[simp] theorem exec_bind (m : Method Op Reply σ ε α) (f : α → Method Op Reply σ ε β) :
    exec answer (m >>= f) self world = match exec answer m self world with
      | (.ok value, self, world) => exec answer (f value) self world
      | (.error e, self, world) => (.error e, self, world) := by
  have split := Program.run_bind answer (m.run.run self)
    (fun ended => ExceptT.bindCont f ended.1 ended.2) world
  rcases ended : (m.run.run self).run answer world with ⟨⟨_ | _, after⟩, later⟩ <;>
    simp only [ended] at split <;> simp only [exec, ended] <;>
    exact congrArg (fun done => (done.1.1, done.1.2, done.2)) split

@[simp] theorem exec_map (f : α → β) (m : Method Op Reply σ ε α) :
    exec answer (f <$> m) self world = match exec answer m self world with
      | (.ok value, self, world) => (.ok (f value), self, world)
      | (.error e, self, world) => (.error e, self, world) :=
  exec_bind answer self world m fun value => pure (f value)

/-! ## Invariants -/

/-- The method keeps an invariant of its object and the environment, also when it throws. -/
def Keeps (holds : σ → τ → Prop) (m : Method Op Reply σ ε α) : Prop :=
  ∀ self world, holds self world → holds (exec answer m self world).2.1 (exec answer m self world).2.2

variable {answer} {holds : σ → τ → Prop}

theorem keeps_pure (value : α) : Keeps answer holds (pure value : Method Op Reply σ ε α) :=
  fun _ _ now => now

theorem keeps_throw (e : ε) : Keeps answer holds (throw e : Method Op Reply σ ε α) :=
  fun _ _ now => now

theorem Keeps.bind {m : Method Op Reply σ ε α} {f : α → Method Op Reply σ ε β} (first : Keeps answer holds m)
    (rest : ∀ value, Keeps answer holds (f value)) : Keeps answer holds (m >>= f) := by
  intro self world now
  have kept := first self world now
  rw [exec_bind]
  generalize exec answer m self world = ended at kept ⊢
  rcases ended with ⟨_ | value, after, later⟩
  · exact kept
  · exact rest value after later kept

end Method
end SecureChat.Library
