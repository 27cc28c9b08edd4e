import SecureChat.Library.Machine

/-!
# Refinement

A step of a concrete machine commits at most one action of an abstract machine, together with the
output that it claims for it. The run refines the abstract machine if that machine, taking the
committed actions one after the other, gives the claimed outputs. `refines_iff` decides this for a
run by what each commit finds, `refinement_rule` is its case for machines that always refine.
-/

namespace SecureChat.Library

section
variable {σ α ρ τ β ω : Type} (step : α → σ → ρ × σ) (spec : β → τ → ω × τ) (commit : ρ → Option (β × ω))

def commits (h : List (Moment σ α ρ)) : List (β × ω) :=
  h.filterMap fun m => commit m.output

theorem commits_concat (h : List (Moment σ α ρ)) (m : Moment σ α ρ) :
    commits commit (h ++ [m]) = commits commit h ++ (commit m.output).toList := by
  cases committed : commit m.output <;> simp [commits, committed]

/-- The actions taken in this order from `t` have the outputs claimed for them. -/
def Legal (t : τ) (log : List (β × ω)) : Prop :=
  (history spec t (log.map Prod.fst)).map Moment.output = log.map Prod.snd

theorem legal_nil (t : τ) : Legal spec t [] := rfl

theorem legal_concat (t : τ) (log : List (β × ω)) (b : β) (out : ω) :
    Legal spec t (log ++ [(b, out)]) ↔
      Legal spec t log ∧ (spec b (final spec t (log.map Prod.fst))).1 = out := by
  unfold Legal
  simp only [List.map_append, List.map_cons, List.map_nil, history_concat]
  constructor
  · intro same
    obtain ⟨earlier, last⟩ := List.append_inj same (by simp)
    exact ⟨earlier, by simpa [moment] using last⟩
  · rintro ⟨earlier, last⟩
    rw [earlier]
    simp [moment, last]

/-- A commit is legal exactly if its moment is good, and good moments keep the states related. -/
theorem refines_iff (related : σ → τ → Prop) (good : Moment σ α ρ → Prop) {start : σ} {t : τ}
    (initially : related start t)
    (silent : ∀ s t a, related s t → commit (step a s).1 = none →
      good (moment step s a) ∧ related (step a s).2 t)
    (committed : ∀ s t a b out, related s t → commit (step a s).1 = some (b, out) →
      ((spec b t).1 = out ↔ good (moment step s a)) ∧
      (good (moment step s a) → related (step a s).2 (spec b t).2))
    (actions : List α) :
    let log := commits commit (history step start actions)
    (Legal spec t log ↔ ∀ m ∈ history step start actions, good m) ∧
    (Legal spec t log → related (final step start actions) (final spec t (log.map Prod.fst))) := by
  refine history_rule step (fun h s => (Legal spec t (commits commit h) ↔ ∀ m ∈ h, good m) ∧
    (Legal spec t (commits commit h) → related s (final spec t ((commits commit h).map Prod.fst))))
    ⟨by simp [commits, legal_nil], fun _ => initially⟩ ?_ actions
  intro past s a earlier
  obtain ⟨iff, states⟩ := earlier
  rw [commits_concat, forall_mem_concat]
  cases output : commit (step a s).1 with
  | none =>
      simp only [moment, output, Option.toList_none, List.append_nil]
      constructor
      · rw [← iff]
        exact ⟨fun legal => ⟨legal, (silent s _ a (states legal) output).1⟩, And.left⟩
      · exact fun legal => (silent s _ a (states legal) output).2
  | some claimed =>
      obtain ⟨b, out⟩ := claimed
      simp only [moment, output, Option.toList_some]
      rw [legal_concat, ← iff]
      constructor
      · refine and_congr_right fun legal => ?_
        exact (committed s _ a b out (states legal) output).1
      · rintro ⟨legal, last⟩
        rw [List.map_append, List.map_cons, List.map_nil, final_concat]
        obtain ⟨exact, next⟩ := committed s _ a b out (states legal) output
        exact next (exact.mp last)

theorem refinement_rule (related : σ → τ → Prop) {start : σ} {t : τ} (initially : related start t)
    (silent : ∀ s t a, related s t → commit (step a s).1 = none → related (step a s).2 t)
    (committed : ∀ s t a b out, related s t → commit (step a s).1 = some (b, out) →
      (spec b t).1 = out ∧ related (step a s).2 (spec b t).2)
    (actions : List α) :
    let log := commits commit (history step start actions)
    Legal spec t log ∧ related (final step start actions) (final spec t (log.map Prod.fst)) := by
  obtain ⟨iff, states⟩ := refines_iff step spec commit related (fun _ => True) initially
    (fun s t a now none => ⟨trivial, silent s t a now none⟩)
    (fun s t a b out now some => ⟨iff_of_true (committed s t a b out now some).1 trivial,
      fun _ => (committed s t a b out now some).2⟩) actions
  have legal := iff.mpr fun _ _ => trivial
  exact ⟨legal, states legal⟩

end

/-- Machines that take the same actions and answer alike from related states. -/
theorem simulation_rule {σ τ α ρ : Type} (step : α → σ → ρ × σ) (spec : α → τ → ρ × τ) (related : σ → τ → Prop)
    (alike : ∀ s t a, related s t → (step a s).1 = (spec a t).1 ∧ related (step a s).2 (spec a t).2)
    (actions : List α) {s : σ} {t : τ} (now : related s t) :
    (history step s actions).map Moment.output = (history spec t actions).map Moment.output ∧
      related (final step s actions) (final spec t actions) := by
  induction actions generalizing s t with
  | nil => exact ⟨rfl, now⟩
  | cons a rest ih =>
      obtain ⟨output, next⟩ := alike s t a now
      obtain ⟨outputs, last⟩ := ih next
      refine ⟨?_, last⟩
      rw [history, history, List.map_cons, List.map_cons, outputs]
      exact congrArg (· :: _) output

end SecureChat.Library
