import Intcode.Program

/-!
# Amplifier chains

A chain has one execution of a program per phase setting. Each starts with its phase and the signal
that the one before it put out. With feedback, the last signal then goes round the amplifiers again
and again, until one halts instead of putting out a signal. In the end every amplifier must have
halted.

A run of a chain also gives the history of all pulls in order.
-/

set_option autoImplicit false

namespace Intcode.Chain

/-- One thing that happened in a chain. -/
inductive Event where
  | pulled (index : Nat) (outcome : Except Stop (Option Int)) (notices : List Notice)
  /-- An amplifier halted and ended the feedback with this signal. -/
  | closed (index : Nat) (signal : Int)

def Event.notices : Event → List Notice
  | pulled _ _ notices => notices
  | closed index signal => [.amplifierHalted index signal]

structure State where
  amplifiers : Array Execution
  signal : Int
  events : Array Event

/-- Pulls on an amplifier and puts the outcome into the history. -/
def pullAt (fuel index : Nat) (amplifier : Execution) (state : State) :
    Except Stop (Option Int) × Execution × State :=
  let (outcome, next, notices) := amplifier.pullNoting fuel
  (outcome, next, { state with events := state.events.push (.pulled index outcome notices) })

/-- Starts one amplifier per phase, each with the signal of the one before. -/
def startAll (fuel : Nat) (program : Program) :
    (index : Nat) → (phases : List Int) → State → Except Stop Unit × State
  | _, [], state => (.ok (), state)
  | index, phase :: phases, state =>
      match (program.loadInputs [phase, state.signal]).bind (·.start {}) with
      | .error error => (.error (.failed error), state)
      | .ok amplifier =>
          match pullAt fuel index amplifier state with
          | (.error stop, _, state) => (.error stop, state)
          | (.ok none, _, state) =>
              (.error (.failed (Error.amplifier index (.silent phase)).raised), state)
          | (.ok (some word), amplifier, state) =>
              startAll fuel program (index + 1) phases
                { state with amplifiers := state.amplifiers.push amplifier, signal := word }

/-- Passes the signal from amplifier to amplifier, round and round, until one halts. -/
def circulate (fuel : Nat) : (pulls index : Nat) → State → Except Stop Unit × State
  | 0, _, state => (.error .outOfFuel, state)
  | pulls + 1, index, state =>
      match state.amplifiers[index]? with
      | none => (.ok (), state)
      | some amplifier =>
          match amplifier.push state.signal with
          | .error error => (.error (.failed error), state)
          | .ok fed =>
              match pullAt fuel index fed state with
              | (.error stop, _, state) => (.error stop, state)
              | (.ok none, halted, state) =>
                  (.ok (),
                    { state with
                      amplifiers := state.amplifiers.setIfInBounds index halted
                      events := state.events.push (.closed index state.signal) })
              | (.ok (some word), next, state) =>
                  circulate fuel pulls ((index + 1) % state.amplifiers.size)
                    { state with
                      amplifiers := state.amplifiers.setIfInBounds index next
                      signal := word }

/-- Checks that amplifiers have halted. -/
def settle (fuel : Nat) :
    (index : Nat) → (amplifiers : List Execution) → State → Except Stop Unit × State
  | _, [], state => (.ok (), state)
  | index, amplifier :: amplifiers, state =>
      match pullAt fuel index amplifier state with
      | (.error (.failed (.starved _)), _, state) =>
          (.error (.failed (.amplifier index .waiting)), state)
      | (.error stop, _, state) => (.error stop, state)
      | (.ok (some word), _, state) =>
          (.error (.failed (Error.amplifier index (.talking word)).raised), state)
      | (.ok none, _, state) => settle fuel (index + 1) amplifiers state

/-- The final signal of a chain, or how the run ended without one, and the history. -/
structure Report where
  result : Except Stop Int
  events : Array Event

/-- Runs a chain. The fuel bounds every single pull and the number of feedback pulls. -/
def run (fuel : Nat) (program : Program) (phases : List Int) (signal : Int) (feedback : Bool) :
    Report :=
  match startAll fuel program 0 phases { amplifiers := #[], signal, events := #[] } with
  | (.error stop, state) => ⟨.error stop, state.events⟩
  | (.ok (), started) =>
      match if feedback then circulate fuel fuel 0 started else (.ok (), started) with
      | (.error stop, state) => ⟨.error stop, state.events⟩
      | (.ok (), final) =>
          match settle fuel 0 final.amplifiers.toList final with
          | (.error stop, state) => ⟨.error stop, state.events⟩
          | (.ok (), state) => ⟨.ok final.signal, state.events⟩

end Intcode.Chain
