import DesignTokens.Token.Basic

/-!
# Scopes

A scope says which value a path stands for. Several scopes are searched one after the other,
and the first that defines a path decides.

* `Scope.find?` and `Scopes.find?` are the look-ups; in a scope the last entry of a path counts.
* `Scopes.unvisited` counts the entries whose path is not in a chain: entering a defined path
  that is not in the chain makes it smaller (`unvisited_lt`), which is why following aliases
  ends.
-/

namespace DesignTokens

/-- Paths and what they stand for. -/
abbrev Scope := List (String × Value)

/-- Scopes, from the one searched first to the one searched last. -/
abbrev Scopes := List Scope

/-- What a path stands for: its last entry. -/
def Scope.find? (path : String) : Scope → Option Value
  | [] => none
  | (p, v) :: rest =>
    match Scope.find? path rest with
    | some later => some later
    | none => if p = path then some v else none

/-- The scope of the values of tokens. -/
def Scope.ofTokens (tokens : List Token) : Scope :=
  tokens.map fun t => (t.path.dotted, t.value)

namespace Scopes

/-- What a path stands for: the first scope that defines it decides. -/
def find? (scopes : Scopes) (path : String) : Option Value :=
  scopes.findSome? (Scope.find? path)

/-- The paths of all entries. -/
def paths (scopes : Scopes) : List String :=
  scopes.flatMap fun scope => scope.map Prod.fst

/-- How many entries have a path that is not in the chain. -/
def unvisited (scopes : Scopes) (chain : List String) : Nat :=
  (scopes.paths.filter fun path => path ∉ chain).length

end Scopes

theorem Scope.mem_of_find?_eq_some {path : String} {scope : Scope} {value : Value}
    (h : Scope.find? path scope = some value) : path ∈ scope.map Prod.fst := by
  induction scope generalizing value with
  | nil => simp [Scope.find?] at h
  | cons entry rest ih =>
    obtain ⟨p, v⟩ := entry
    simp only [Scope.find?] at h
    split at h
    next later found => exact List.mem_cons_of_mem _ (ih found)
    next =>
      split at h
      next same => simp [same]
      next => simp at h

theorem Scopes.mem_paths_of_find?_eq_some {scopes : Scopes} {path : String} {value : Value}
    (h : scopes.find? path = some value) : path ∈ scopes.paths := by
  obtain ⟨scope, mem, found⟩ := List.exists_of_findSome?_eq_some h
  exact List.mem_flatMap.2 ⟨scope, mem, Scope.mem_of_find?_eq_some found⟩

/-- A chain grows by a defined path that it does not hold: fewer entries are left. -/
theorem Scopes.unvisited_lt {scopes : Scopes} {chain : List String} {path : String} {value : Value}
    (fresh : path ∉ chain) (defined : scopes.find? path = some value) :
    scopes.unvisited (chain ++ [path]) < scopes.unvisited chain := by
  have mem := Scopes.mem_paths_of_find?_eq_some defined
  unfold Scopes.unvisited
  generalize scopes.paths = paths at mem
  -- a path that is missing from the longer chain is missing from the shorter one
  have weaker : ∀ p, decide (p ∉ chain ++ [path]) = true → decide (p ∉ chain) = true := by
    intro p h
    simp only [decide_eq_true_eq, List.mem_append, not_or] at h ⊢
    exact h.1
  have monotone : ∀ ps : List String,
      (ps.filter fun p => p ∉ chain ++ [path]).length ≤ (ps.filter fun p => p ∉ chain).length := by
    intro ps
    rw [← List.countP_eq_length_filter, ← List.countP_eq_length_filter]
    exact List.countP_mono_left fun p _ => weaker p
  -- at the entry itself the shorter chain counts one more
  obtain ⟨front, back, rfl⟩ := List.append_of_mem mem
  have dropped : (path :: back).filter (fun p => p ∉ chain ++ [path]) =
      back.filter fun p => p ∉ chain ++ [path] := by
    rw [List.filter_cons]
    simp
  have kept : (path :: back).filter (fun p => p ∉ chain) =
      path :: back.filter fun p => p ∉ chain := by
    rw [List.filter_cons]
    simp [fresh]
  rw [List.filter_append, List.filter_append, dropped, kept]
  have inFront := monotone front
  have inBack := monotone back
  simp only [List.length_append, List.length_cons]
  omega

end DesignTokens
