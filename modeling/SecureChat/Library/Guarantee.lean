import SecureChat.Library.Program

/-!
# Rely and guarantee

Between two requests of a program others change the state, within what the program relies on. A
program meets its guarantee if it makes only requests that are allowed in the state in which they
are answered, and ends with a value that is right, whatever the others do in between.
-/

namespace SecureChat.Library.Program
variable {Op : Type} {Reply : Op → Type} {α β ε σ : Type}

section
variable (answer : (op : Op) → σ → Reply op × σ) (rely : σ → σ → Prop) (allows : Op → σ → Prop)

def Meets (ends : α → σ → Prop) : Program Op Reply α → σ → Prop
  | .done value, s => ends value s
  | .request op next, s =>
      ∀ t, rely s t → allows op t ∧ (next (answer op t).1).Meets ends (answer op t).2

variable {answer rely allows} {ends : α → σ → Prop}

theorem Meets.mono {ends' : α → σ → Prop} (weaker : ∀ value s, ends value s → ends' value s)
    {p : Program Op Reply α} {s : σ} (meets : p.Meets answer rely allows ends s) :
    p.Meets answer rely allows ends' s := by
  induction p generalizing s with
  | done value => exact weaker value s meets
  | request op next ih => exact fun t others => ⟨(meets t others).1, ih _ (meets t others).2⟩

theorem Meets.bind {f : α → Program Op Reply β} {ends : β → σ → Prop} {p : Program Op Reply α} {s : σ}
    (meets : p.Meets answer rely allows (fun value t => (f value).Meets answer rely allows ends t) s) :
    (p.bind f).Meets answer rely allows ends s := by
  induction p generalizing s with
  | done value => exact meets
  | request op next ih => exact fun t others => ⟨(meets t others).1, ih _ (meets t others).2⟩

/-- A program that has not been answered yet does not mind what the others do. -/
theorem Meets.interfered (trans : ∀ s t u, rely s t → rely t u → rely s u)
    (stable : ∀ value s t, rely s t → ends value s → ends value t) {p : Program Op Reply α} {s t : σ}
    (meets : p.Meets answer rely allows ends s) (others : rely s t) : p.Meets answer rely allows ends t := by
  cases p with
  | done value => exact stable value s t others meets
  | request op next => exact fun u later => meets u (trans s t u others later)

end

/-! ## Programs that throw -/

section
variable (answer : (op : Op) → σ → Reply op × σ) (rely : σ → σ → Prop) (allows : Op → σ → Prop)

def MeetsExcept (ends : Except ε α → σ → Prop) (p : ExceptT ε (Program Op Reply) α) (s : σ) : Prop :=
  p.run.Meets answer rely allows ends s

variable {answer rely allows} {ends : Except ε α → σ → Prop} {s : σ}

theorem meets_bind {p : ExceptT ε (Program Op Reply) α} {f : α → ExceptT ε (Program Op Reply) β}
    {ends : Except ε β → σ → Prop}
    (meets : MeetsExcept answer rely allows (fun ended t => match ended with
      | .ok value => MeetsExcept answer rely allows ends (f value) t
      | .error e => ends (.error e) t) p s) :
    MeetsExcept answer rely allows ends (p >>= f) s := by
  refine Meets.bind (Meets.mono (fun ended t right => ?_) meets)
  cases ended with
  | ok value => exact right
  | error e => exact right

theorem meets_tryCatch {p : ExceptT ε (Program Op Reply) α} {handle : ε → ExceptT ε (Program Op Reply) α}
    (meets : MeetsExcept answer rely allows (fun ended t => match ended with
      | .ok value => ends (.ok value) t
      | .error e => MeetsExcept answer rely allows ends (handle e) t) p s) :
    MeetsExcept answer rely allows ends (tryCatch p handle) s := by
  refine Meets.bind (Meets.mono (fun ended t right => ?_) meets)
  cases ended with
  | ok value => exact right
  | error e => exact right

theorem meets_ask {op : Op} {ends : Except ε (Reply op) → σ → Prop}
    (meets : ∀ t, rely s t → allows op t ∧ ends (.ok (answer op t).1) (answer op t).2) :
    MeetsExcept answer rely allows ends (ExceptT.lift (ask op) : ExceptT ε (Program Op Reply) (Reply op)) s :=
  meets

end
end SecureChat.Library.Program
