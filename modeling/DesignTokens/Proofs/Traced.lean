import DesignTokens.Traced

/-!
# Taking runs apart

A run is a log beside a result, and a composed run comes apart again:

* `Traced.bind_eq_ok_iff` and `Traced.bind_eq_error_iff` — how a composed run can have come to its
  result, so that a long run is inverted step by step.
* `Traced.log_bind_of_ok` — its records, when the first part succeeds.
* `failure?` — the error of a result. What a composed run fails with is what the first of its parts
  that fails does (`Traced.failure?_bind`).
* `Traced.effect` — a run without its value: what it records and whether it fails. Two runs with
  the same effect can stand for one another wherever the value is not used (`effect_bind_const`).
-/

namespace DesignTokens

/-- The error that a result is, if it is one. -/
def failure? {ε α : Type} : Except ε α → Option ε
  | .ok _ => none
  | .error e => some e

theorem failure?_eq_some_iff {ε α : Type} {result : Except ε α} {e : ε} :
    failure? result = some e ↔ result = .error e := by
  cases result <;> simp [failure?]

namespace Traced

variable {ρ σ ε δ α β : Type}

/-! ### Inversion -/

/-- A composed run succeeds when both of its parts do. -/
theorem bind_eq_ok_iff {x : Traced ρ ε α} {f : α → Traced ρ ε β} {b : β} :
    (x >>= f).result = .ok b ↔ ∃ a, x.result = .ok a ∧ (f a).result = .ok b := by
  cases h : x.result with
  | ok a => simp [bind_of_ok h]
  | error e => simp [bind_of_error h]

/-- A composed run fails when its first part fails, or else the second. -/
theorem bind_eq_error_iff {x : Traced ρ ε α} {f : α → Traced ρ ε β} {e : ε} :
    (x >>= f).result = .error e ↔
      x.result = .error e ∨ ∃ a, x.result = .ok a ∧ (f a).result = .error e := by
  cases h : x.result with
  | ok a => simp [bind_of_ok h]
  | error e' => simp [bind_of_error h]

/-- The result of a composed run depends on the results of its parts alone. -/
theorem result_bind_congr {x x' : Traced ρ ε α} {f f' : α → Traced ρ ε β}
    (hx : x.result = x'.result) (hf : ∀ a, x.result = .ok a → (f a).result = (f' a).result) :
    (x >>= f).result = (x' >>= f').result := by
  cases h : x.result with
  | ok a => rw [bind_of_ok h, bind_of_ok (hx ▸ h), hf a h]
  | error e => rw [bind_of_error h, bind_of_error (hx ▸ h)]

@[simp] theorem result_fail (e : ε) : (fail e : Traced ρ ε α).result = .error e := rfl

@[simp] theorem result_record (r : ρ) : (record r : Traced ρ ε Unit).result = .ok () := rfl

@[simp] theorem result_ofExcept (result : Except ε α) :
    (ofExcept result : Traced ρ ε α).result = result := rfl

@[simp] theorem result_mapLog (f : ρ → σ) (x : Traced ρ ε α) : (x.mapLog f).result = x.result := rfl

/-- Rewriting the error leaves a success as it is. -/
theorem mapError_eq_ok_iff {f : ε → δ} {x : Traced ρ ε α} {a : α} :
    (x.mapError f).result = .ok a ↔ x.result = .ok a := by
  obtain ⟨log, result⟩ := x
  cases result with
  | ok a' =>
    show (Except.ok a' : Except δ α) = .ok a ↔ (Except.ok a' : Except ε α) = .ok a
    rw [Except.ok.injEq, Except.ok.injEq]
  | error e =>
    show (Except.error (f e) : Except δ α) = .ok a ↔ (Except.error e : Except ε α) = .ok a
    simp

theorem mapError_eq_error_iff {f : ε → δ} {x : Traced ρ ε α} {d : δ} :
    (x.mapError f).result = .error d ↔ ∃ e, x.result = .error e ∧ d = f e := by
  obtain ⟨log, result⟩ := x
  cases result with
  | ok a =>
    show (Except.ok a : Except δ α) = .error d ↔ ∃ e, (Except.ok a : Except ε α) = .error e ∧ _
    simp
  | error e =>
    show (Except.error (f e) : Except δ α) = .error d ↔
      ∃ e', (Except.error e : Except ε α) = .error e' ∧ _
    simp [eq_comm]

/-- A run that does not fail succeeds. -/
theorem exists_ok_iff {x : Traced ρ ε α} :
    (∃ a, x.result = .ok a) ↔ ¬ ∃ e, x.result = .error e := by
  cases x.result <;> simp

/-- A run that does not succeed fails. -/
theorem exists_error_iff {x : Traced ρ ε α} :
    (∃ e, x.result = .error e) ↔ ¬ ∃ a, x.result = .ok a := by
  cases x.result <;> simp

/-- What a successful run records is followed by what its continuation records. -/
theorem log_bind_of_ok {x : Traced ρ ε α} {a : α} (h : x.result = .ok a) (f : α → Traced ρ ε β) :
    (x >>= f).log = x.log ++ (f a).log := by
  rw [bind_of_ok h]

/-- What holds of the records of both parts holds of those of a composed run. -/
theorem forall_mem_log_bind {P : ρ → Prop} {x : Traced ρ ε α} {f : α → Traced ρ ε β}
    (hx : ∀ r ∈ x.log, P r) (hf : ∀ a, ∀ r ∈ (f a).log, P r) : ∀ r ∈ (x >>= f).log, P r := by
  cases h : x.result with
  | ok a =>
    rw [log_bind_of_ok h, List.forall_mem_append]
    exact ⟨hx, hf a⟩
  | error e =>
    rw [bind_of_error h]
    exact hx

/-- A composed run records nothing if none of its parts does. -/
theorem log_bind_eq_nil {x : Traced ρ ε α} {f : α → Traced ρ ε β} (hx : x.log = [])
    (hf : ∀ a, (f a).log = []) : (x >>= f).log = [] := by
  rw [List.eq_nil_iff_forall_not_mem]
  exact forall_mem_log_bind (by simp [hx]) (by simp [hf])

@[simp] theorem log_mapError (f : ε → δ) (x : Traced ρ ε α) : (x.mapError f).log = x.log := rfl

@[simp] theorem log_mapLog (f : ρ → σ) (x : Traced ρ ε α) : (x.mapLog f).log = x.log.map f := rfl

/-- If it does not depend on the value of the first part whether and how the second part fails, then
the first failure of the two is that of the composed run. -/
theorem failure?_bind {x : Traced ρ ε α} {f : α → Traced ρ ε β} {later : Option ε}
    (h : ∀ a, failure? (f a).result = later) :
    failure? (x >>= f).result = (failure? x.result).or later := by
  cases result : x.result with
  | ok a =>
    rw [bind_of_ok result, h a]
    rfl
  | error e =>
    rw [bind_of_error result]
    rfl

/-- A second part that never fails has no say in it. -/
theorem failure?_bind_of_none {x : Traced ρ ε α} {f : α → Traced ρ ε β}
    (h : ∀ a, failure? (f a).result = none) :
    failure? (x >>= f).result = failure? x.result := by
  rw [failure?_bind h, Option.or_none]

/-- A value computed at the end does not fail. -/
theorem failure?_bind_pure (x : Traced ρ ε α) (f : α → β) :
    failure? (x >>= fun a => pure (f a)).result = failure? x.result :=
  failure?_bind_of_none fun _ => rfl

/-- A success read off as an option; options of decidable data can be compared. -/
theorem toOption_eq_some_iff {x : Traced ρ ε α} {a : α} :
    x.result.toOption = some a ↔ x.result = .ok a := by
  cases x.result <;> simp [Except.toOption]

/-! ### Effects -/

/-- A run without its value. -/
def effect (x : Traced ρ ε α) : Traced ρ ε Unit := do
  let _ ← x
  return ()

@[simp] theorem effect_pure (a : α) : (pure a : Traced ρ ε α).effect = pure () :=
  pure_bind a _

/-- The effect of a run records what the run records. -/
theorem log_effect (x : Traced ρ ε α) : x.effect.log = x.log := by
  rw [effect]
  cases h : x.result with
  | ok a => rw [log_bind_of_ok h, log_pure, List.append_nil]
  | error e => rw [bind_of_error h]

/-- The effect of a composed run is that of its parts, one after the other. -/
theorem effect_bind (x : Traced ρ ε α) (f : α → Traced ρ ε β) :
    (x >>= f).effect = x >>= fun a => (f a).effect :=
  bind_assoc x f _

/-- A value computed at the end adds nothing to the effect. -/
theorem effect_bind_pure (x : Traced ρ ε α) (f : α → β) :
    (x >>= fun a => pure (f a)).effect = x.effect := by
  rw [effect_bind]
  simp only [effect_pure]
  rfl

/-- Where its value is not used, a run can be replaced by its effect. -/
theorem effect_bind_const (x : Traced ρ ε α) (y : Traced ρ ε β) :
    (x.effect >>= fun _ => y) = x >>= fun _ => y := by
  rw [effect, bind_assoc]
  simp only [pure_bind]

/-- A run fails exactly when its effect does, and with the same error. -/
theorem effect_eq_error_iff {x : Traced ρ ε α} {e : ε} :
    x.effect.result = .error e ↔ x.result = .error e := by
  rw [effect, bind_eq_error_iff]
  simp

/-- A run succeeds exactly when its effect does. -/
theorem effect_ok_iff {x : Traced ρ ε α} :
    (∃ u, x.effect.result = .ok u) ↔ ∃ a, x.result = .ok a := by
  simp only [effect, bind_eq_ok_iff, result_pure]
  refine ⟨?_, ?_⟩
  · rintro ⟨_, a, ha, -⟩
    exact ⟨a, ha⟩
  · rintro ⟨a, ha⟩
    exact ⟨(), a, ha, trivial⟩

end Traced

end DesignTokens
