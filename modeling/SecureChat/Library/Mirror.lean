import SecureChat.Library.Program

/-!
# Programs under a renaming

A renaming changes the requests of a program and carries the replies along. A program mirrors
another one if it makes the renamed requests and goes on alike after every reply: what the renaming
changes then decides nothing. The rules follow the way a program is put together.
-/

namespace SecureChat.Library.Program
variable {Op : Type} {Reply : Op → Type} {α β ε σ : Type}

inductive Mirrors (rename : Op → Op) (carry : (op : Op) → Reply op → Reply (rename op)) :
    Program Op Reply α → Program Op Reply α → Prop
  | done (value : α) : Mirrors rename carry (.done value) (.done value)
  | request (op : Op) (next : Reply op → Program Op Reply α) (next' : Reply (rename op) → Program Op Reply α)
      (mirrors : ∀ reply, Mirrors rename carry (next reply) (next' (carry op reply))) :
      Mirrors rename carry (.request op next) (.request (rename op) next')

variable {rename : Op → Op} {carry : (op : Op) → Reply op → Reply (rename op)}

theorem Mirrors.value {p p' : Program Op Reply α} (mirrors : Mirrors rename carry p p') :
    p'.value? = p.value? := by
  cases mirrors <;> rfl

theorem Mirrors.bind {p p' : Program Op Reply α} {f f' : α → Program Op Reply β}
    (first : Mirrors rename carry p p') (rest : ∀ value, Mirrors rename carry (f value) (f' value)) :
    Mirrors rename carry (p.bind f) (p'.bind f') := by
  induction first with
  | done value => exact rest value
  | request op next next' mirrors ih => exact .request op _ _ ih

/-! ## Programs that throw -/

def Mirrored (rename : Op → Op) (carry : (op : Op) → Reply op → Reply (rename op))
    (p p' : ExceptT ε (Program Op Reply) α) : Prop :=
  Mirrors rename carry p.run p'.run

theorem mirrored_pure (value : α) :
    Mirrored rename carry (pure value : ExceptT ε (Program Op Reply) α) (pure value) := .done _

theorem mirrored_throw (e : ε) :
    Mirrored rename carry (throw e : ExceptT ε (Program Op Reply) α) (throw e) := .done _

theorem mirrored_bind {p p' : ExceptT ε (Program Op Reply) α} {f f' : α → ExceptT ε (Program Op Reply) β}
    (first : Mirrored rename carry p p') (rest : ∀ value, Mirrored rename carry (f value) (f' value)) :
    Mirrored rename carry (p >>= f) (p' >>= f') := by
  refine Mirrors.bind first fun ended => ?_
  cases ended with
  | ok value => exact rest value
  | error e => exact .done _

end SecureChat.Library.Program
