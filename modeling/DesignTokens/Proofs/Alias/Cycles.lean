import DesignTokens.Proofs.Alias.References
import Mathlib.Logic.Relation

/-!
# Cycles

The values in scopes make a graph of paths: a path refers to every path that the value it stands
for writes, and a path that is not defined refers to none (`Scopes.Refers`). Expanding a value
walks this graph depth first, with the paths entered on the way as its only memory, and forgets
each branch when it leaves it.

* `Scopes.chainInduction` — a chain is only prolonged by defined paths that it does not hold, so
  what is shown of a chain may be used of all its prolongations.
* `followWithin` — following aliases down to a depth, written without any reason why it should
  end. `followWithin_eq_expandAlias` gives the depth below which nothing is ever asked.
* `expandAlias_error_iff` — following an alias fails exactly when the graph leads from its path
  back to the chain or into a cycle (`Scopes.LeadsBack`).
* `expand_ends_and_fails_iff_reachesCycle` — every expansion ends, and it fails exactly when its
  value reaches a cycle.

That a walk which fails has met a cycle is seen from the chain that it met; that it meets every
cycle is seen from the other side. From a path that leads back, some reference leads back too, now
with the path itself in the chain, and this cannot go on for longer than there are paths.
-/

namespace DesignTokens

open Relation

namespace Scopes

/-- In scopes, a path **refers** to the paths that the value it stands for writes. -/
def Refers (scopes : Scopes) (path next : String) : Prop :=
  ∃ target, scopes.find? path = some target ∧ target.Writes next

/-- A value reaches a cycle when a path that it writes leads to a path that leads to itself. -/
def ReachesCycle (scopes : Scopes) (value : Value) : Prop :=
  ∃ path again, value.Writes path ∧ ReflTransGen scopes.Refers path again ∧
    TransGen scopes.Refers again again

/-- A path leads back, after the paths of a chain, when it leads to one of them or into a cycle. -/
def LeadsBack (scopes : Scopes) (chain : List String) (path : String) : Prop :=
  ∃ again, ReflTransGen scopes.Refers path again ∧
    (again ∈ chain ∨ TransGen scopes.Refers again again)

/-- **Induction along chains.** A chain is prolonged by defined paths that it does not hold, which
leaves fewer of them. -/
@[elab_as_elim]
theorem chainInduction (scopes : Scopes) {motive : List String → Prop}
    (step : ∀ chain, (∀ path target, path ∉ chain → scopes.find? path = some target →
      motive (chain ++ [path])) → motive chain)
    (chain : List String) : motive chain := by
  induction h : scopes.unvisited chain using Nat.strongRecOn generalizing chain with
  | ind n ih =>
    refine step chain fun path target fresh found => ?_
    exact ih _ (h ▸ unvisited_lt fresh found) _ rfl

variable {scopes : Scopes} {chain : List String} {path next : String}

/-- A path in the chain leads back. -/
theorem LeadsBack.of_mem (entered : path ∈ chain) : scopes.LeadsBack chain path :=
  ⟨path, .refl, Or.inl entered⟩

/-- What a path refers to leads back, once the path is in the chain, only if the path did. -/
theorem LeadsBack.of_refers (refers : scopes.Refers path next)
    (back : scopes.LeadsBack (chain ++ [path]) next) : scopes.LeadsBack chain path := by
  obtain ⟨again, reaches, entered | cyclic⟩ := back
  · rcases List.mem_append.1 entered with entered | same
    · exact ⟨again, .head refers reaches, Or.inl entered⟩
    · -- the walk has come back to the path that it started from
      obtain rfl := List.mem_singleton.1 same
      exact ⟨again, .refl, Or.inr (.head' refers reaches)⟩
  · exact ⟨again, .head refers reaches, Or.inr cyclic⟩

/-- A path that leads back and is not in the chain refers to one that leads back in its turn. -/
theorem LeadsBack.exists_refers (back : scopes.LeadsBack chain path) (fresh : path ∉ chain) :
    ∃ next, scopes.Refers path next ∧ scopes.LeadsBack (chain ++ [path]) next := by
  obtain ⟨again, reaches, ends⟩ := back
  rcases ReflTransGen.cases_head reaches with rfl | ⟨next, refers, reaches⟩
  · obtain ⟨next, refers, returns⟩ := TransGen.head'_iff.1 (ends.resolve_left fresh)
    exact ⟨next, refers, path, returns, Or.inl (by simp)⟩
  · exact ⟨next, refers, again, reaches, ends.imp_left (List.mem_append_left _)⟩

end Scopes

namespace Alias

variable {scopes : Scopes} {context : String} {chain : List String} {path written : String}

/-! ### The three cases of an alias -/

/-- A path that was entered before is a cycle. -/
theorem expandAlias_of_mem (entered : path ∈ chain) :
    expandAlias scopes context chain path written = Traced.fail ⟨chain ++ [path]⟩ := by
  rw [expandAlias, dif_pos entered]

/-- A path that is not defined stays as it is written. -/
theorem expandAlias_of_missing (fresh : path ∉ chain) (missing : scopes.find? path = none) :
    expandAlias scopes context chain path written = (do
      if chain = [] then Traced.record (.unresolvedReference path context)
      return .str written) := by
  rw [expandAlias, dif_neg fresh]
  split
  · rfl
  · next found => rw [missing] at found; cases found

/-- A path that is defined becomes the expansion of what it stands for. -/
theorem expandAlias_of_found {target : Value} (fresh : path ∉ chain)
    (found : scopes.find? path = some target) :
    expandAlias scopes context chain path written =
      expandWith (expandAlias scopes context (chain ++ [path])) target := by
  rw [expandAlias, dif_neg fresh]
  split
  · next missing => rw [missing] at found; cases found
  · next target' found' =>
    rw [found'] at found
    rw [Option.some.inj found]

theorem result_expandAlias_of_missing (fresh : path ∉ chain)
    (missing : scopes.find? path = none) :
    (expandAlias scopes context chain path written).result = .ok (.str written) := by
  rw [expandAlias_of_missing fresh missing]
  split <;> rfl

/-! ### Following ends -/

/-- Following aliases to a depth: what lies deeper is left to `deeper`. Nothing here says why it
should end. -/
def followWithin (scopes : Scopes) (context : String)
    (deeper : List String → (path written : String) → Expansion Value) :
    (depth : Nat) → List String → (path written : String) → Expansion Value
  | 0, chain, path, written => deeper chain path written
  | depth + 1, chain, path, written =>
    if path ∈ chain then Traced.fail ⟨chain ++ [path]⟩
    else
      match scopes.find? path with
      | none => do
        if chain = [] then Traced.record (.unresolvedReference path context)
        return .str written
      | some target =>
        expandWith (followWithin scopes context deeper depth (chain ++ [path])) target

/-- **Following aliases ends.** With more depth than there are entries that the chain does not
hold, what lies deeper is never asked. -/
theorem followWithin_eq_expandAlias
    (deeper : List String → (path written : String) → Expansion Value) {depth : Nat}
    (h : scopes.unvisited chain < depth) :
    followWithin scopes context deeper depth chain = expandAlias scopes context chain := by
  induction depth generalizing chain with
  | zero => exact absurd h (Nat.not_lt_zero _)
  | succ depth ih =>
    funext path written
    rw [followWithin]
    split
    · next entered => rw [expandAlias_of_mem entered]
    · next fresh =>
      split
      · next missing => rw [expandAlias_of_missing fresh missing]
      · next target found =>
        have hless := Scopes.unvisited_lt fresh found
        rw [expandAlias_of_found fresh found, ih (by omega)]

/-! ### Following fails -/

/-- **Following an alias fails exactly when its path leads back.** -/
theorem expandAlias_error_iff :
    (∃ e, (expandAlias scopes context chain path written).result = .error e) ↔
      scopes.LeadsBack chain path := by
  induction chain using Scopes.chainInduction scopes generalizing path written with
  | step chain ih =>
    by_cases entered : path ∈ chain
    · rw [expandAlias_of_mem entered]
      exact iff_of_true ⟨_, rfl⟩ (.of_mem entered)
    cases found : scopes.find? path with
    | none =>
      -- a path that is not defined refers to nothing
      rw [result_expandAlias_of_missing entered found]
      refine iff_of_false (by simp) fun back => ?_
      obtain ⟨next, ⟨target, found', -⟩, -⟩ := back.exists_refers entered
      rw [found] at found'
      cases found'
    | some target =>
      have hstep : ∀ r : Reference,
          (∃ e, (expandAlias scopes context (chain ++ [path]) r.path r.written).result = .error e)
            ↔ scopes.LeadsBack (chain ++ [path]) r.path :=
        fun r => ih path target entered found
      rw [expandAlias_of_found entered found, expandWith_error_iff]
      refine ⟨?_, ?_⟩
      · rintro ⟨r, hr, fails⟩
        have writes := Value.exists_reference_iff.1 ⟨r, hr, rfl⟩
        exact .of_refers ⟨target, found, writes⟩ ((hstep r).1 fails)
      · intro back
        obtain ⟨next, ⟨target', found', writes⟩, back⟩ := back.exists_refers entered
        rw [found] at found'
        obtain rfl := Option.some.inj found'
        obtain ⟨r, hr, rfl⟩ := Value.exists_reference_iff.2 writes
        exact ⟨r, hr, (hstep r).2 back⟩

theorem expandAlias_ok_iff :
    (∃ w, (expandAlias scopes context chain path written).result = .ok w) ↔
      ¬ scopes.LeadsBack chain path := by
  rw [Traced.exists_ok_iff, expandAlias_error_iff]

/-- An expansion fails exactly when its value reaches a cycle. -/
theorem expand_error_iff {value : Value} :
    (∃ e, (expand scopes context value).result = .error e) ↔ scopes.ReachesCycle value := by
  rw [expand, expandWith_error_iff]
  refine ⟨?_, ?_⟩
  · rintro ⟨r, hr, fails⟩
    obtain ⟨again, reaches, entered | cyclic⟩ := expandAlias_error_iff.1 fails
    · cases entered
    · exact ⟨r.path, again, Value.exists_reference_iff.1 ⟨r, hr, rfl⟩, reaches, cyclic⟩
  · rintro ⟨path, again, writes, reaches, cyclic⟩
    obtain ⟨r, hr, rfl⟩ := Value.exists_reference_iff.2 writes
    exact ⟨r, hr, expandAlias_error_iff.2 ⟨again, reaches, Or.inr cyclic⟩⟩

/-- **Expansion ends, and fails exactly on cycles.** Whatever would be answered deeper than there
are entries in the scopes, an expansion never asks for it; and it fails if and only if its value
writes a path from which a cycle is reached, however far. -/
theorem expand_ends_and_fails_iff_reachesCycle (scopes : Scopes) (context : String)
    (value : Value) :
    (∀ deeper, expandWith
        (followWithin scopes context deeper (scopes.paths.length + 1) []) value =
      expand scopes context value) ∧
    ((∃ e, (expand scopes context value).result = .error e) ↔
      ∃ path again, value.Writes path ∧ ReflTransGen scopes.Refers path again ∧
        TransGen scopes.Refers again again) := by
  refine ⟨fun deeper => ?_, expand_error_iff⟩
  have hall : scopes.unvisited [] = scopes.paths.length := by simp [Scopes.unvisited]
  rw [followWithin_eq_expandAlias deeper (by omega), expand]

end Alias

end DesignTokens
