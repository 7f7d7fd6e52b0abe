import DesignTokens.Diagnostic
import DesignTokens.Failure
import DesignTokens.Token.Set

/-!
# Events

What a run records on the way: the stages it passes, with what they found, and the warnings
between them.

* `Event` is one record.
* `diagnostics` are the warnings among the records.
-/

namespace DesignTokens

/-- One record of a run. -/
inductive Event where
  | layoutDetected (layout : Layout) (root : Location)
  | tierMissing (tier : Tier) (directory : Location)
  | tokensLoaded (layout : Layout) (counts : TierCounts)
  | warned (diagnostic : Diagnostic)
  | tiersResolved (counts : TierCounts)
  | sectionsEmitted (sections derivations : Nat)
  | stylesheetWritten (output : Location)
  | propertiesCounted (shared dark light total : Nat)
  | warningsCounted (count : Nat)
deriving DecidableEq, Repr

/-- The warning that a record makes, if it is one. -/
def Event.diagnostic? : Event → Option Diagnostic
  | .warned d => some d
  | _ => none

/-- The warnings among records, in order. -/
def diagnostics (events : List Event) : List Diagnostic :=
  events.filterMap Event.diagnostic?

/-- Records that are all warnings are those warnings. -/
@[simp] theorem diagnostics_map_warned (ds : List Diagnostic) :
    diagnostics (ds.map Event.warned) = ds := by
  induction ds with
  | nil => rfl
  | cons d rest ih => simpa [diagnostics, Event.diagnostic?] using ih

@[simp] theorem diagnostics_append (a b : List Event) :
    diagnostics (a ++ b) = diagnostics a ++ diagnostics b := by
  simp [diagnostics]

end DesignTokens
