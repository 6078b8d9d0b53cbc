import NodeFormula.Fault

/-!
# Steps in a row

What comes of two steps one after the other, whatever state they change and whatever stops them.
-/

namespace NodeFormula

variable {β : Type} {step : EStateM ε σ α} {next : α → EStateM ε σ β} {state after : σ}

theorem bind_of_ok (done : step state = .ok answer after) :
    (step >>= next) state = next answer after := by
  simp only [bind, EStateM.bind, done]

theorem bind_of_error (failed : step state = .error fault after) :
    (step >>= next) state = .error fault after := by
  simp only [bind, EStateM.bind, failed]

/-- If two steps are done, the second goes on with the answer and state of the first. -/
theorem bind_eq_ok (done : (step >>= next) state = .ok result after) :
    ∃ value middle, step state = .ok value middle ∧ next value middle = .ok result after := by
  cases early : step state with
  | ok value middle =>
    rw [bind_of_ok early] at done
    exact ⟨value, middle, rfl, done⟩
  | error fault middle =>
    rw [bind_of_error early] at done
    cases done

/-- A step whose answer is only changed leaves the state that it leaves itself. -/
theorem map_eq_ok {give : α → β}
    (done : (step >>= fun value => pure (give value)) state = .ok result after) :
    ∃ value, step state = .ok value after ∧ result = give value := by
  obtain ⟨value, _, early, answered⟩ := bind_eq_ok done
  cases answered
  exact ⟨value, early, rfl⟩

theorem except_bind_eq_ok {next : α → Except ε β} (done : (attempt >>= next) = .ok result) :
    ∃ value, attempt = .ok value ∧ next value = .ok result := by
  cases attempt with
  | ok value => exact ⟨value, rfl, done⟩
  | error fault => cases done

theorem bind_get {next : σ → EStateM ε σ α} : (get >>= next) state = next state state := rfl

theorem bind_modify {next : PUnit → EStateM ε σ α} :
    (modify change >>= next) state = next () (change state) := rfl

/-! ## Runs that can be decided -/

section Deciding

variable {holdsIn : σ → α → Prop}

instance decidableSome {found : Option α} [DecidablePred holds] :
    Decidable (∃ value, found = some value ∧ holds value) :=
  inferInstanceAs (Decidable (∃ value ∈ found, holds value))

instance decidableOk {result : Except ε α} [DecidablePred holds] :
    Decidable (∃ value, result = .ok value ∧ holds value) :=
  match result with
  | .ok value => decidable_of_iff (holds value) (by simp)
  | .error _ => isFalse (by simp)

instance decidableError {result : Except ε α} {fault : ε} [DecidableEq ε] :
    Decidable (result = .error fault) :=
  match result with
  | .ok _ => isFalse nofun
  | .error found => decidable_of_iff (found = fault) (by simp)

instance decidableRunOk {result : σ × Except ε α} [∀ state, DecidablePred (holdsIn state)] :
    Decidable (∃ state value, result = (state, .ok value) ∧ holdsIn state value) :=
  match result with
  | (state, .ok value) => decidable_of_iff (holdsIn state value) (by simp [and_assoc])
  | (_, .error _) => isFalse (by simp)

instance decidableStepOk [∀ state, DecidablePred (holdsIn state)] :
    Decidable (∃ value last, step state = .ok value last ∧ holdsIn last value) :=
  match step state with
  | .ok value last => decidable_of_iff (holdsIn last value) (by simp [and_assoc])
  | .error _ _ => isFalse (by simp)

instance decidableActOk {act : EStateM ε σ Unit} {holds : σ → Prop} [DecidablePred holds] :
    Decidable (∃ last, act state = .ok () last ∧ holds last) :=
  match act state with
  | .ok _ last => decidable_of_iff (holds last) (by simp)
  | .error _ _ => isFalse (by simp)

instance decidableStepError {fault : ε} [DecidableEq ε] :
    Decidable (∃ last, step state = .error fault last) :=
  match step state with
  | .ok _ _ => isFalse nofun
  | .error found _ => decidable_of_iff (found = fault) (by simp)

end Deciding

end NodeFormula
