import Intcode.Chain
import Intcode.Chain.Ordering

/-!
# The best phase setting

Every ordering of the phases is tried; the greatest final signal wins, and of several orderings that
reach it the first. The first ordering whose chain fails ends the search.
-/

set_option autoImplicit false

namespace Intcode.Chain

structure Setting where
  signal : Int
  phases : List Int
  deriving DecidableEq, Repr

/-- The best setting so far, and the history of the chains run for it. -/
structure Search where
  best : Option Setting
  events : Array Event

/-- Keeps the setting with the greater signal, and the earlier one of equals. -/
def Search.offer (search : Search) (setting : Setting) : Search :=
  match search.best with
  | none => { search with best := some setting }
  | some best =>
      if best.signal < setting.signal then { search with best := some setting } else search

/-- Runs the chain of one ordering. -/
def Search.attempt (fuel : Nat) (program : Program) (feedback : Bool) (search : Search)
    (phases : List Int) : Except (Stop × Array Event) Search :=
  let report := run fuel program phases 0 feedback
  let events := search.events ++ report.events
  match report.result with
  | .error stop => .error (stop, events)
  | .ok signal => .ok ({ search with events }.offer ⟨signal, phases⟩)

/-- The best setting and the history of all chains that were run. -/
def best (fuel : Nat) (program : Program) (phases : List Int) (feedback : Bool) :
    Except Stop (Option Setting) × Array Event :=
  match visit (Search.attempt fuel program feedback) phases.length [] phases ⟨none, #[]⟩ with
  | .error (stop, events) => (.error stop, events)
  | .ok search => (.ok search.best, search.events)

end Intcode.Chain
