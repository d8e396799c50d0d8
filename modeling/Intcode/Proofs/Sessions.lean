import Intcode.Execution
import Intcode.Proofs.MachineStep

/-!
# Sessions with an execution

A session is a sequence of requests to one execution: words are pushed, outputs are pulled or
drained, tracing is switched, the execution is reset. Pulls and drains carry the bound on machine
steps they are made with. What a session keeps, and what its outputs are like, follows from what
single turns keep and output.
-/

set_option autoImplicit false

namespace Intcode

/-- A request to an execution. -/
inductive Request where
  | push (value : Int)
  | extend (values : List Int)
  | pull (fuel : Nat)
  | drain (fuel : Nat)
  | setTracing (tracing : Bool)
  | forgetTrace
  | reset
  deriving DecidableEq, Repr

/-- What a request is answered with. -/
inductive Answer where
  | done
  | refused (error : Error)
  | pulled (outcome : Except Stop (Option Int))
  | drained (outcome : Except Stop (List Int))

/-- The words that a request adds to the queue; a request that is refused adds none. -/
def Request.words : Request → List Int
  | .push value => if Word.Fits value then [value] else []
  | .extend values => if ∀ value ∈ values, Word.Fits value then values else []
  | .pull _ | .drain _ | .setTracing _ | .forgetTrace | .reset => []

theorem Request.words_fit (request : Request) : ∀ word ∈ request.words, Word.Fits word := by
  intro word member
  cases request with
  | push value =>
      simp only [words] at member
      split at member
      case isTrue fits =>
        rw [List.mem_singleton] at member
        exact member ▸ fits
      case isFalse => exact absurd member (by simp)
  | extend values =>
      simp only [words] at member
      split at member
      case isTrue fits => exact fits word member
      case isFalse => exact absurd member (by simp)
  | pull _ => exact absurd member (by simp [words])
  | drain _ => exact absurd member (by simp [words])
  | setTracing _ => exact absurd member (by simp [words])
  | forgetTrace => exact absurd member (by simp [words])
  | reset => exact absurd member (by simp [words])

namespace Execution

/-- Words behind the queue, unchecked. -/
def feed (execution : Execution) (words : List Int) : Execution :=
  { execution with queue := execution.queue ++ words }

/-- Answers one request. A refused one changes nothing. -/
def serve (execution : Execution) : Request → Answer × Execution
  | .push value =>
      match execution.push value with
      | .ok next => (.done, next)
      | .error error => (.refused error, execution)
  | .extend values =>
      match execution.pushAll values with
      | .ok next => (.done, next)
      | .error error => (.refused error, execution)
  | .pull fuel =>
      let (outcome, next) := execution.pull fuel
      (.pulled outcome, next)
  | .drain fuel =>
      let (outcome, next) := execution.drain fuel
      (.drained outcome, next)
  | .setTracing tracing => (.done, execution.setTracing tracing)
  | .forgetTrace => (.done, execution.forgetTrace)
  | .reset => (.done, execution.reset)

/-- The answers to requests made one after the other, and the execution they leave. -/
def session (execution : Execution) : List Request → List Answer × Execution
  | [] => ([], execution)
  | request :: requests =>
      let (answer, next) := execution.serve request
      let (answers, last) := next.session requests
      (answer :: answers, last)

/-- The words that a request makes the program output, those that a failing drain drops included. -/
def emitted (execution : Execution) : Request → List Int
  | .pull fuel =>
      match (execution.pull fuel).1 with
      | .ok (some word) => [word]
      | .ok none | .error _ => []
  | .drain fuel => (execution.collect fuel #[]).1.toList
  | .push _ | .extend _ | .setTracing _ | .forgetTrace | .reset => []

/-- The words that a session makes the program output. -/
def produced (execution : Execution) : List Request → List Int
  | [] => []
  | request :: requests =>
      execution.emitted request ++ (execution.serve request).2.produced requests

/-! ## Turns -/

/-- How a turn can end, one rule for each report of the machine; a request for input has two, since
the queue may be empty. -/
inductive Turns (execution : Execution) : Option (Except Error (Option Int)) → Execution → Prop
  | trapped (trap : Trap) (machine : Machine)
      (step : execution.machine.step = (.error (.trap trap), machine)) :
      Turns execution (some (.error (.trap trap))) { execution with machine, fault := some trap }
  | failed (error : Error) (machine : Machine)
      (step : execution.machine.step = (.error error, machine))
      (untrapped : ∀ trap, error ≠ .trap trap) :
      Turns execution (some (.error error)) { execution with machine }
  | continued (machine : Machine) (step : execution.machine.step = (.ok .continued, machine)) :
      Turns execution none { execution with machine }
  | output (word : Int) (machine : Machine)
      (step : execution.machine.step = (.ok (.output word), machine)) :
      Turns execution (some (.ok (some word))) { execution with machine }
  | halted (machine : Machine) (step : execution.machine.step = (.ok .halted, machine)) :
      Turns execution (some (.ok none)) { execution with machine, halted := true }
  | starved (target : Nat) (machine : Machine)
      (step : execution.machine.step = (.ok (.needsInput target), machine))
      (empty : execution.queue = []) :
      Turns execution (some (.error (.starved machine.registers.ip))) { execution with machine }
  | fed (target : Nat) (machine : Machine) (word : Int) (queue : List Int)
      (step : execution.machine.step = (.ok (.needsInput target), machine))
      (queued : execution.queue = word :: queue) :
      Turns execution none { execution with machine := machine.supply target word, queue }

theorem turn_turns (execution next : Execution) (outcome : Option (Except Error (Option Int)))
    (turned : execution.turn = (outcome, next)) : execution.Turns outcome next := by
  unfold turn at turned
  split at turned
  case h_1 trap machine step =>
    cases turned
    exact .trapped trap machine step
  case h_2 error machine untrapped step =>
    cases turned
    exact .failed error machine step fun trap same => untrapped trap same
  case h_3 machine step =>
    cases turned
    exact .continued machine step
  case h_4 word machine step =>
    cases turned
    exact .output word machine step
  case h_5 machine step =>
    cases turned
    exact .halted machine step
  case h_6 target machine step =>
    split at turned
    case h_1 empty =>
      cases turned
      exact .starved target machine step empty
    case h_2 word queue queued =>
      cases turned
      exact .fed target machine word queue step queued

/-- The rules leave nothing open, so a turn can be read off them. -/
theorem turns_turn (execution next : Execution) (outcome : Option (Except Error (Option Int)))
    (turns : execution.Turns outcome next) : execution.turn = (outcome, next) := by
  unfold turn
  cases turns with
  | trapped trap machine step => rw [step]
  | failed error machine step untrapped =>
      rw [step]
      cases error with
      | trap trap => exact absurd rfl (untrapped trap)
      | _ => rfl
  | continued machine step => rw [step]
  | output word machine step => rw [step]
  | halted machine step => rw [step]
  | starved target machine step empty => rw [step, empty]
  | fed target machine word queue step queued => rw [step, queued]

/-- A turn that does not end the pull neither halts nor faults the execution. -/
theorem unended_turn (execution next : Execution) (turned : execution.turn = (none, next)) :
    next.fault = execution.fault ∧ next.halted = execution.halted := by
  generalize reported : (none : Option (Except Error (Option Int))) = outcome at turned
  cases turn_turns execution next outcome turned with
  | continued machine step => exact ⟨rfl, rfl⟩
  | fed target machine word queue step queued => exact ⟨rfl, rfl⟩
  | _ => exact absurd reported (by simp)

/-! ## Pulls -/

/-- The outcome of a pull that was not cut off. -/
def inTime : Except Error (Option Int) → Except Stop (Option Int)
  | .ok result => .ok result
  | .error error => .error (.failed error)

/-- Only such an execution makes turns: a pull from any other ends at once. -/
structure Running (execution : Execution) : Prop where
  faultless : execution.fault = none
  unhalted : execution.halted = false

theorem Running.unended {execution next : Execution} (running : execution.Running)
    (turned : execution.turn = (none, next)) : next.Running := by
  obtain ⟨sameFault, sameHalted⟩ := unended_turn execution next turned
  exact ⟨sameFault.trans running.faultless, sameHalted.trans running.unhalted⟩

theorem Running.pull {execution : Execution} (running : execution.Running) (fuel : Nat) :
    execution.pull fuel = execution.advance fuel := by
  simp [Execution.pull, running.faultless, running.unhalted]

theorem pull_faulted (fuel : Nat) (execution : Execution) (trap : Trap)
    (faulted : execution.fault = some trap) :
    execution.pull fuel = (inTime (.error (.stopped trap)), execution) := by
  simp only [pull, faulted, inTime]

theorem pull_halted (fuel : Nat) (execution : Execution) (faultless : execution.fault = none)
    (halted : execution.halted = true) : execution.pull fuel = (inTime (.ok none), execution) := by
  simp only [pull, faultless, if_pos halted, inTime]

/-- An execution that is not running answers at once, as does every one halted or faulted alike. -/
theorem pull_settled (execution : Execution) (stopped : ¬ execution.Running) :
    ∃ outcome, (outcome = .ok none ∨ ∃ trap, outcome = .error (.stopped trap)) ∧
      ∀ (fuel : Nat) (other : Execution), other.fault = execution.fault →
        other.halted = execution.halted →
        other.pull fuel = (inTime outcome, other) := by
  cases faulted : execution.fault with
  | some trap =>
      refine ⟨_, .inr ⟨trap, rfl⟩, ?_⟩
      intro fuel other sameFault _
      exact pull_faulted fuel other trap sameFault
  | none =>
      cases halted : execution.halted with
      | true =>
          refine ⟨_, .inl rfl, ?_⟩
          intro fuel other sameFault sameHalted
          exact pull_halted fuel other sameFault sameHalted
      | false => exact absurd ⟨faulted, halted⟩ stopped

/-- Only a running execution answers otherwise than a halted or a faulted one does. -/
theorem running_of_pull (fuel : Nat) (execution : Execution)
    (unhalted : (execution.pull fuel).1 ≠ .ok none)
    (unstopped : ∀ trap, (execution.pull fuel).1 ≠ .error (.failed (.stopped trap))) :
    execution.Running := by
  cases faulted : execution.fault with
  | some trap =>
      have settled := pull_faulted fuel execution trap faulted
      exact absurd (congrArg Prod.fst settled) (unstopped trap)
  | none =>
      cases halted : execution.halted with
      | true =>
          have settled := pull_halted fuel execution faulted halted
          exact absurd (congrArg Prod.fst settled) unhalted
      | false => exact ⟨faulted, halted⟩

/-! ## Inputs -/

theorem accept_inputs_ok (values words : List Int) (accepted : acceptInputs values = .ok words) :
    words = values ∧ ∀ word ∈ values, Word.Fits word := by
  unfold acceptInputs at accepted
  split at accepted
  case h_1 value found => exact absurd accepted (by simp)
  case h_2 missing =>
    refine ⟨(Except.ok.inj accepted).symm, ?_⟩
    intro word member
    simpa using List.find?_eq_none.mp missing word member

theorem accept_inputs_of_fits (values : List Int) (fits : ∀ word ∈ values, Word.Fits word) :
    acceptInputs values = .ok values := by
  have missing : (values.find? fun value => ¬ Word.Fits value) = none := by
    rw [List.find?_eq_none]
    intro word member
    simpa using fits word member
  rw [acceptInputs, missing]

theorem accept_inputs_error (values : List Int) (error : Error)
    (refused : acceptInputs values = .error error) :
    ∃ value ∈ values, ¬ Word.Fits value ∧ error = (Error.inputOutOfRange value).raised := by
  unfold acceptInputs at refused
  split at refused
  case h_1 value found =>
    cases refused
    exact ⟨value, List.mem_of_find?_eq_some found, by simpa using List.find?_some found, rfl⟩
  case h_2 missing => exact absurd refused (by simp)

theorem start_ok (image inputs : List Int) (options : Options) (fresh : Execution)
    (started : start image inputs options = .ok fresh) :
    fresh = boot image inputs options ∧ ∀ word ∈ inputs, Word.Fits word := by
  unfold start at started
  cases checked : acceptInputs inputs with
  | error error => simp [checked, Except.map] at started
  | ok words =>
      obtain ⟨same, fits⟩ := accept_inputs_ok inputs words checked
      simp only [checked, Except.map, same] at started
      exact ⟨(Except.ok.inj started).symm, fits⟩

theorem start_of_fits (image inputs : List Int) (options : Options)
    (fits : ∀ word ∈ inputs, Word.Fits word) :
    start image inputs options = .ok (boot image inputs options) := by
  rw [start, accept_inputs_of_fits inputs fits]
  rfl

theorem feed_nil (execution : Execution) : execution.feed [] = execution := by
  simp [feed]

theorem feed_feed (execution : Execution) (first second : List Int) :
    (execution.feed first).feed second = execution.feed (first ++ second) := by
  simp [feed]

theorem push_all_ok (execution fed : Execution) (values : List Int)
    (pushed : execution.pushAll values = .ok fed) :
    fed = execution.feed values ∧ ∀ word ∈ values, Word.Fits word := by
  unfold pushAll at pushed
  cases accepted : acceptInputs values with
  | error error => simp [accepted, Except.map] at pushed
  | ok words =>
      obtain ⟨rfl, fits⟩ := accept_inputs_ok values words accepted
      rw [accepted] at pushed
      exact ⟨(Except.ok.inj pushed).symm, fits⟩

/-- Pushing, one word or many, feeds the words that are accepted. -/
theorem serve_push (execution : Execution) (value : Int) :
    (execution.serve (.push value)).2 = execution.feed (Request.push value).words := by
  unfold serve push Request.words
  by_cases fits : Word.Fits value
  · simp only [if_pos fits]
    rfl
  · simp only [if_neg fits]
    exact (feed_nil execution).symm

theorem serve_extend (execution : Execution) (values : List Int) :
    (execution.serve (.extend values)).2 = execution.feed (Request.extend values).words := by
  unfold serve pushAll Request.words
  by_cases fits : ∀ value ∈ values, Word.Fits value
  · simp only [accept_inputs_of_fits values fits, if_pos fits]
    rfl
  · simp only [if_neg fits]
    cases accepted : acceptInputs values with
    | error error => exact (feed_nil execution).symm
    | ok words => exact absurd (accept_inputs_ok values words accepted).2 fits

/-! ## Sessions in two parts -/

theorem session_append (execution : Execution) (first second : List Request) :
    execution.session (first ++ second) =
      ((execution.session first).1 ++ ((execution.session first).2.session second).1,
        ((execution.session first).2.session second).2) := by
  induction first generalizing execution with
  | nil => rfl
  | cons request first ih => simp only [List.cons_append, session, ih]

/-! ## What sessions keep -/

/-- A property of executions that turns, accepted words, trace switches and resets keep. -/
structure Kept (Good : Execution → Prop) : Prop where
  turn : ∀ execution, execution.Running → Good execution → Good execution.turn.2
  feed : ∀ execution words, (∀ word ∈ words, Word.Fits word) → Good execution →
    Good (execution.feed words)
  setTracing : ∀ execution tracing, Good execution → Good (execution.setTracing tracing)
  forgetTrace : ∀ execution, Good execution → Good execution.forgetTrace
  reset : ∀ execution, Good execution → Good execution.reset

section Keeping

variable {Good : Execution → Prop}
  (turns : ∀ execution, execution.Running → Good execution → Good execution.turn.2)

include turns

theorem advance_keeps (fuel : Nat) (execution : Execution) (running : execution.Running)
    (good : Good execution) : Good (execution.advance fuel).2 := by
  induction fuel generalizing execution with
  | zero => exact good
  | succ fuel ih =>
      have next := turns execution running good
      unfold advance
      split
      case h_1 after turned =>
        rw [turned] at next
        exact ih after (running.unended turned) next
      case h_2 result after turned =>
        rw [turned] at next
        exact next
      case h_3 error after turned =>
        rw [turned] at next
        exact next

theorem pull_keeps (fuel : Nat) (execution : Execution) (good : Good execution) :
    Good (execution.pull fuel).2 := by
  by_cases running : execution.Running
  · rw [running.pull]
    exact advance_keeps turns fuel execution running good
  · obtain ⟨_, _, settled⟩ := pull_settled execution running
    rw [settled fuel execution rfl rfl]
    exact good

theorem collect_keeps (fuel : Nat) (execution : Execution) (outputs : Array Int)
    (good : Good execution) : Good (execution.collect fuel outputs).2.2 := by
  induction fuel generalizing execution outputs with
  | zero => exact good
  | succ fuel ih =>
      have next := pull_keeps turns fuel execution good
      unfold collect
      split
      case h_1 word after pulled => exact ih after _ (by rw [pulled] at next; exact next)
      case h_2 after pulled =>
        rw [pulled] at next
        exact next
      case h_3 stop after pulled =>
        rw [pulled] at next
        exact next

theorem drain_keeps (fuel : Nat) (execution : Execution) (good : Good execution) :
    Good (execution.drain fuel).2 := by
  have last := collect_keeps turns fuel execution #[] good
  unfold drain
  split
  case h_1 outputs stop after collected =>
    rw [collected] at last
    exact last
  case h_2 outputs after collected =>
    rw [collected] at last
    split <;> exact last

end Keeping

theorem serve_keeps {Good : Execution → Prop} (kept : Kept Good) (execution : Execution)
    (request : Request) (good : Good execution) : Good (execution.serve request).2 := by
  cases request with
  | push value =>
      rw [serve_push]
      exact kept.feed execution _ (Request.words_fit _) good
  | extend values =>
      rw [serve_extend]
      exact kept.feed execution _ (Request.words_fit _) good
  | pull fuel => exact pull_keeps kept.turn fuel execution good
  | drain fuel => exact drain_keeps kept.turn fuel execution good
  | setTracing tracing => exact kept.setTracing execution tracing good
  | forgetTrace => exact kept.forgetTrace execution good
  | reset => exact kept.reset execution good

theorem session_keeps {Good : Execution → Prop} (kept : Kept Good) (execution : Execution)
    (requests : List Request) (good : Good execution) : Good (execution.session requests).2 := by
  induction requests generalizing execution with
  | nil => exact good
  | cons request requests ih => exact ih _ (serve_keeps kept execution request good)

/-! ## What sessions output -/

section Outputs

variable {Good : Execution → Prop} {Fine : Int → Prop}
  (turns : ∀ execution, execution.Running → Good execution → Good execution.turn.2)
  (outputs : ∀ execution next word, Good execution →
    execution.turn = (some (.ok (some word)), next) → Fine word)

include turns outputs

theorem advance_output (fuel : Nat) (execution : Execution) (word : Int)
    (running : execution.Running) (good : Good execution)
    (advanced : (execution.advance fuel).1 = .ok (some word)) : Fine word := by
  induction fuel generalizing execution with
  | zero => exact absurd advanced (by simp [advance])
  | succ fuel ih =>
      unfold advance at advanced
      split at advanced
      case h_1 after turned =>
        have next := turns execution running good
        rw [turned] at next
        exact ih after (running.unended turned) next advanced
      case h_2 result after turned =>
        have same : result = some word := Except.ok.inj advanced
        rw [same] at turned
        exact outputs execution after word good turned
      case h_3 error after turned => exact absurd advanced (by simp)

theorem pull_output (fuel : Nat) (execution : Execution) (word : Int) (good : Good execution)
    (pulled : (execution.pull fuel).1 = .ok (some word)) : Fine word := by
  by_cases running : execution.Running
  · rw [running.pull] at pulled
    exact advance_output turns outputs fuel execution word running good pulled
  · obtain ⟨outcome, quick, settled⟩ := pull_settled execution running
    rw [settled fuel execution rfl rfl] at pulled
    rcases quick with rfl | ⟨trap, rfl⟩
    · exact absurd pulled (by simp [inTime])
    · exact absurd pulled (by simp [inTime])

theorem collect_outputs (fuel : Nat) (execution : Execution) (earlier : Array Int) (word : Int)
    (good : Good execution) (fine : ∀ word ∈ earlier, Fine word)
    (member : word ∈ (execution.collect fuel earlier).1) : Fine word := by
  induction fuel generalizing execution earlier with
  | zero => exact fine word member
  | succ fuel ih =>
      unfold collect at member
      split at member
      case h_1 first after pulled =>
        have next := pull_keeps turns fuel execution good
        rw [pulled] at next
        refine ih after _ next ?_ member
        intro word member
        rcases Array.mem_push.mp member with old | new
        · exact fine word old
        · exact pull_output turns outputs fuel execution word good (by rw [pulled, new])
      case h_2 after pulled => exact fine word member
      case h_3 stop after pulled => exact fine word member

theorem emitted_fine (execution : Execution) (request : Request) (word : Int)
    (good : Good execution) (member : word ∈ execution.emitted request) : Fine word := by
  cases request with
  | pull fuel =>
      simp only [emitted] at member
      split at member
      case h_1 first pulled =>
        rw [List.mem_singleton] at member
        exact pull_output turns outputs fuel execution word good (member ▸ pulled)
      case h_2 => exact absurd member (by simp)
      case h_3 => exact absurd member (by simp)
  | drain fuel =>
      exact collect_outputs turns outputs fuel execution #[] word good (by simp)
        (Array.mem_toList_iff.mp member)
  | push _ => exact absurd member (by simp [emitted])
  | extend _ => exact absurd member (by simp [emitted])
  | setTracing _ => exact absurd member (by simp [emitted])
  | forgetTrace => exact absurd member (by simp [emitted])
  | reset => exact absurd member (by simp [emitted])

end Outputs

theorem produced_fine {Good : Execution → Prop} {Fine : Int → Prop} (kept : Kept Good)
    (outputs : ∀ execution next word, Good execution →
      execution.turn = (some (.ok (some word)), next) → Fine word)
    (execution : Execution) (requests : List Request) (word : Int) (good : Good execution)
    (member : word ∈ execution.produced requests) : Fine word := by
  induction requests generalizing execution with
  | nil => exact absurd member (by simp [produced])
  | cons request requests ih =>
      rcases List.mem_append.mp member with now | later
      · exact emitted_fine kept.turn outputs execution request word good now
      · exact ih _ (serve_keeps kept execution request good) later

end Execution

end Intcode
