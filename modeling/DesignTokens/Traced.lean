/-!
# Computations that keep a log

A run over the tokens may fail, and on the way it records what a reader should know. The
records made before a failure are kept: they are what explains it.

* `Traced ρ ε α` is a log of `ρ` beside a result that is an `α` or an error `ε`.
* `Traced.record` makes one record, `Traced.fail` fails.
* `Traced.mapLog` and `Traced.mapError` change the vocabulary of a part so that it can take
  part in a larger run.

Composition appends the logs in order (`log_bind`, `result_bind`), and it is lawful.
-/

namespace DesignTokens

/-- A result and what was recorded until it was there. -/
structure Traced (ρ ε α : Type) where
  log : List ρ
  result : Except ε α

namespace Traced

variable {ρ σ ε δ α β γ : Type}

/-- Continues a successful run; a failed one keeps its log and its error. -/
def bind (x : Traced ρ ε α) (f : α → Traced ρ ε β) : Traced ρ ε β :=
  match x.result with
  | .ok a => ⟨x.log ++ (f a).log, (f a).result⟩
  | .error e => ⟨x.log, .error e⟩

instance : Monad (Traced ρ ε) where
  pure a := ⟨[], .ok a⟩
  bind := bind

/-- Makes one record. -/
def record (r : ρ) : Traced ρ ε Unit :=
  ⟨[r], .ok ()⟩

/-- Fails. -/
def fail (e : ε) : Traced ρ ε α :=
  ⟨[], .error e⟩

/-- A result that records nothing. -/
def ofExcept (result : Except ε α) : Traced ρ ε α :=
  ⟨[], result⟩

/-- Rewrites every record. -/
def mapLog (f : ρ → σ) (x : Traced ρ ε α) : Traced σ ε α :=
  ⟨x.log.map f, x.result⟩

/-- Rewrites the error. -/
def mapError (f : ε → δ) (x : Traced ρ ε α) : Traced ρ δ α :=
  ⟨x.log, x.result.mapError f⟩

@[simp] theorem log_pure (a : α) : (pure a : Traced ρ ε α).log = [] := rfl

@[simp] theorem result_pure (a : α) : (pure a : Traced ρ ε α).result = .ok a := rfl

@[simp] theorem pure_bind (a : α) (f : α → Traced ρ ε β) : (pure a >>= f) = f a := by
  show bind ⟨[], .ok a⟩ f = f a
  simp [bind]

/-- The continuation's records follow those already made. -/
theorem bind_of_ok {x : Traced ρ ε α} {a : α} (h : x.result = .ok a) (f : α → Traced ρ ε β) :
    (x >>= f) = ⟨x.log ++ (f a).log, (f a).result⟩ := by
  show bind x f = _
  simp [bind, h]

/-- A failed run is not continued. -/
theorem bind_of_error {x : Traced ρ ε α} {e : ε} (h : x.result = .error e)
    (f : α → Traced ρ ε β) : (x >>= f) = ⟨x.log, .error e⟩ := by
  show bind x f = _
  simp [bind, h]

theorem bind_pure_self (x : Traced ρ ε α) : bind x pure = x := by
  obtain ⟨log, result⟩ := x
  cases result <;> simp [bind]

theorem bind_bind (x : Traced ρ ε α) (f : α → Traced ρ ε β) (g : β → Traced ρ ε γ) :
    bind (bind x f) g = bind x fun a => bind (f a) g := by
  obtain ⟨log, result⟩ := x
  -- a failure stops both sides; a success appends three logs in the same order
  cases result with
  | error e => rfl
  | ok a => cases h : (f a).result <;> simp [bind, h]

instance : LawfulMonad (Traced ρ ε) :=
  LawfulMonad.mk' (Traced ρ ε) bind_pure_self pure_bind bind_bind

end Traced

end DesignTokens
