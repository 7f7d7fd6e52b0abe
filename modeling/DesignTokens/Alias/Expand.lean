import DesignTokens.Alias.Pattern
import DesignTokens.Alias.Scope
import DesignTokens.Diagnostic
import DesignTokens.Traced
import DesignTokens.Value.Text

/-!
# Expanding aliases

A value is expanded by replacing each alias that it writes. A text that is an alias and
nothing else becomes the value that the alias stands for, of whatever type; inside a longer
text an alias becomes the plain text of that value. The fields of an object are expanded one
by one. Lists, numbers and truth values are left alone.

The value that an alias stands for is expanded in its turn. The paths entered on the way form
a chain; a path that would be entered a second time is a cycle.

* `Value.expandWith` expands a value, given what to do with an alias.
* `expandAlias` is what is done with an alias: it ends, because each path entered leaves fewer
  to enter.
* `expand` puts both together.

A path that no scope defines keeps its alias as it is written. It is reported where it is
written, so not when it is met on the way through another alias.
-/

namespace DesignTokens

/-- The paths entered, in order, and at the end the one that was met again. -/
structure CyclicReference where
  chain : List String
deriving DecidableEq, Repr

/-- An expansion with the warnings it gives. -/
abbrev Expansion := Traced Diagnostic CyclicReference

namespace Alias

/-- How an alias is written. -/
def aliasText (path : String) : String :=
  "\x7b" ++ path ++ "\x7d"

/-- Replaces the aliases in the pieces of a text by the plain text of what `follow` gives for
their path; what it gives for a missing path may depend on how the alias is written. -/
def expandPieces (follow : (path written : String) → Expansion Value) :
    List Piece → Expansion String
  | [] => pure ""
  | .literal c :: rest => do
    let more ← expandPieces follow rest
    return c.toString ++ more
  | .alias name :: rest => do
    let path := String.ofList name
    let value ← follow path (aliasText path)
    let more ← expandPieces follow rest
    return value.text ++ more

/-- Expands a text. -/
def expandText (follow : (path written : String) → Expansion Value) (text : String) :
    Expansion Value :=
  match wholeAlias? text.toList with
  | some name => follow (String.ofList name) text
  | none => do
    let expanded ← expandPieces follow (scan text.toList)
    return .str expanded

mutual

/-- Expands a value, given what an alias becomes. -/
def expandWith (follow : (path written : String) → Expansion Value) : Value → Expansion Value
  | .str text => expandText follow text
  | .object fields => do
    let expanded ← expandFields follow fields
    return .object expanded
  | .null => pure .null
  | .bool b => pure (.bool b)
  | .int n => pure (.int n)
  | .float x => pure (.float x)
  | .list items => pure (.list items)

/-- Expands the fields of an object, in order. -/
def expandFields (follow : (path written : String) → Expansion Value) : Fields → Expansion Fields
  | [] => pure []
  | (key, value) :: rest => do
    let expanded ← expandWith follow value
    let more ← expandFields follow rest
    return (key, expanded) :: more

end

/-- What an alias becomes that is met after the paths of `chain` were entered. The first
expansion reports a missing path, with the context; the alias then stays as it is written. -/
def expandAlias (scopes : Scopes) (context : String) (chain : List String)
    (path written : String) : Expansion Value :=
  if _entered : path ∈ chain then Traced.fail ⟨chain ++ [path]⟩
  else
    match _found : scopes.find? path with
    | none => do
      -- inside another alias the text belongs to some other token, which reports it itself
      if chain = [] then Traced.record (.unresolvedReference path context)
      return .str written
    | some target => expandWith (expandAlias scopes context (chain ++ [path])) target
termination_by scopes.unvisited chain
decreasing_by exact Scopes.unvisited_lt _entered _found

/-- Expands every alias in a value. -/
def expand (scopes : Scopes) (context : String) (value : Value) : Expansion Value :=
  expandWith (expandAlias scopes context []) value

end Alias

end DesignTokens
