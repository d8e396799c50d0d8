import Intcode.Proofs.Pulls

/-!
# The life of an execution

An execution runs until it halts or faults, and it does not do both. The answers to the requests
tell which: it has halted if a pull or a drain came to the end of the program, and it has faulted if
one of them failed in an instruction. Every other error leaves it as it was, an empty queue, words
left over at the end, a word that was refused and a fault reported again among them. From then on
pulls only repeat how it ended, until it is reset, and a reset makes it what it was at the start.
-/

set_option autoImplicit false

namespace Intcode

namespace Answer

/-- The error that a request was answered with. -/
def error? : Answer → Option Error
  | .refused error | .pulled (.error (.failed error)) | .drained (.error (.failed error)) =>
      some error
  | .done | .pulled (.ok _) | .pulled (.error .outOfFuel) | .drained (.ok _)
  | .drained (.error .outOfFuel) => none

/-- The program was found to have halted. A drain finds that before it looks at the queue. -/
def Ended : Answer → Prop
  | .pulled (.ok none) | .drained (.ok _) | .drained (.error (.failed (.unusedInputs _))) => True
  | _ => False

end Answer

namespace Execution

/-! ## What pulls fail with -/

/-- The errors of a pull: the fault of an instruction, now or earlier, an empty queue, memory that
is longer than a word can count, and a number that is too long to be written. -/
inductive PullError : Error → Prop
  | trap (trap : Trap) : PullError (.trap trap)
  | stopped (trap : Trap) : PullError (.stopped trap)
  | starved (pointer : Nat) : PullError (.starved pointer)
  | countTooLong : PullError .countTooLong
  | unwritable : PullError .unwritable

theorem turn_error (execution next : Execution) (error : Error)
    (turned : execution.turn = (some (.error error), next)) : PullError error := by
  generalize reported : (some (Except.error error) : Option (Except Error (Option Int))) = outcome
    at turned
  cases turn_turns execution next outcome turned with
  | trapped trap machine step =>
      cases reported
      exact .trap trap
  | failed cause machine step untrapped =>
      cases reported
      rcases Machine.step_error _ machine error step with ⟨fault, same⟩ | ⟨rfl, _⟩ | rfl
      · exact absurd same (untrapped _)
      · exact .countTooLong
      · exact .unwritable
  | starved target machine step empty =>
      cases reported
      exact .starved _
  | _ => exact absurd reported (by simp)

theorem advance_error (fuel : Nat) (execution : Execution) (error : Error)
    (failed : (execution.advance fuel).1 = .error (.failed error)) : PullError error := by
  induction fuel generalizing execution with
  | zero => exact absurd failed (by simp [advance])
  | succ fuel ih =>
      unfold advance at failed
      split at failed
      case h_1 after turned => exact ih after failed
      case h_2 result after turned => exact absurd failed (by simp)
      case h_3 cause after turned =>
        cases failed
        exact turn_error execution after error turned

theorem pull_error (fuel : Nat) (execution : Execution) (error : Error)
    (failed : (execution.pull fuel).1 = .error (.failed error)) : PullError error := by
  unfold pull at failed
  split at failed
  case h_1 trap faulted =>
    cases failed
    exact .stopped trap
  case h_2 faultless =>
    split at failed
    · exact absurd failed (by simp)
    · exact advance_error fuel execution error failed

theorem collect_error (fuel : Nat) (execution : Execution) (outputs : Array Int) (error : Error)
    (failed : (execution.collect fuel outputs).2.1 = some (.failed error)) : PullError error := by
  induction fuel generalizing execution outputs with
  | zero => exact absurd failed (by simp [collect])
  | succ fuel ih =>
      unfold collect at failed
      split at failed
      case h_1 word after pulled => exact ih after _ failed
      case h_2 after pulled => exact absurd failed (by simp)
      case h_3 stop after pulled =>
        cases failed
        exact pull_error fuel execution error (congrArg Prod.fst pulled)

/-! ## Halting and faulting -/

/-- A turn of a running execution halts or faults it just when it says so. -/
theorem turn_flags (execution next : Execution) (outcome : Option (Except Error (Option Int)))
    (running : execution.Running) (turned : execution.turn = (outcome, next)) :
    (next.halted = true ↔ outcome = some (.ok none)) ∧
      ∀ trap, next.fault = some trap ↔ outcome = some (.error (.trap trap)) := by
  have unhalted := running.unhalted
  have faultless := running.faultless
  cases turn_turns execution next outcome turned with
  | trapped trap machine step => simp [unhalted]
  | failed error machine step untrapped => simp [unhalted, faultless, untrapped]
  | continued machine step => simp [unhalted, faultless]
  | output word machine step => simp [unhalted, faultless]
  | halted machine step => simp [faultless]
  | starved target machine step empty => simp [unhalted, faultless]
  | fed target machine word queue step queued => simp [unhalted, faultless]

theorem advance_flags (fuel : Nat) (execution next : Execution)
    (outcome : Except Stop (Option Int)) (running : execution.Running)
    (advanced : execution.advance fuel = (outcome, next)) :
    (next.halted = true ↔ outcome = .ok none) ∧
      ∀ trap, next.fault = some trap ↔ outcome = .error (.failed (.trap trap)) := by
  induction fuel generalizing execution with
  | zero =>
      cases advanced
      simp [running.unhalted, running.faultless]
  | succ fuel ih =>
      unfold advance at advanced
      split at advanced
      case h_1 after turned => exact ih after (running.unended turned) advanced
      case h_2 result after turned =>
        cases advanced
        simpa using turn_flags execution next _ running turned
      case h_3 error after turned =>
        cases advanced
        simpa using turn_flags execution next _ running turned

theorem pull_flags (fuel : Nat) (execution next : Execution) (outcome : Except Stop (Option Int))
    (pulled : execution.pull fuel = (outcome, next)) :
    (next.halted = true ↔ execution.halted = true ∨ outcome = .ok none) ∧
      ∀ trap, next.fault = some trap ↔
        execution.fault = some trap ∨ outcome = .error (.failed (.trap trap)) := by
  by_cases running : execution.Running
  · rw [running.pull] at pulled
    simpa [running.unhalted, running.faultless] using
      advance_flags fuel execution next outcome running pulled
  · unfold pull at pulled
    split at pulled
    case h_1 trap faulted =>
      cases pulled
      simp
    case h_2 faultless =>
      split at pulled
      case isTrue halted =>
        cases pulled
        simp [halted]
      case isFalse unhalted =>
        exact absurd ⟨faultless, by simpa using unhalted⟩ running

theorem collect_flags (fuel : Nat) (execution : Execution) (outputs : Array Int) :
    ((execution.collect fuel outputs).2.2.halted = true ↔
      execution.halted = true ∨ (execution.collect fuel outputs).2.1 = none) ∧
    ∀ trap, (execution.collect fuel outputs).2.2.fault = some trap ↔
      execution.fault = some trap ∨
        (execution.collect fuel outputs).2.1 = some (.failed (.trap trap)) := by
  induction fuel generalizing execution outputs with
  | zero => simp [collect]
  | succ fuel ih =>
      unfold collect
      split
      case h_1 word after pulled =>
        have flags := pull_flags fuel execution after _ pulled
        simp only [Except.ok.injEq, reduceCtorEq, or_false] at flags
        simpa [flags.1, flags.2] using ih after (outputs.push word)
      case h_2 after pulled => simpa using pull_flags fuel execution after _ pulled
      case h_3 stop after pulled => simpa using pull_flags fuel execution after _ pulled

theorem drain_flags (fuel : Nat) (execution next : Execution) (outcome : Except Stop (List Int))
    (drained : execution.drain fuel = (outcome, next)) :
    (next.halted = true ↔ execution.halted = true ∨ (Answer.drained outcome).Ended) ∧
      ∀ trap, next.fault = some trap ↔
        execution.fault = some trap ∨ (Answer.drained outcome).error? = some (.trap trap) := by
  have flags := collect_flags fuel execution #[]
  have errors := collect_error fuel execution #[]
  unfold drain at drained
  split at drained
  case h_1 outputs stop after collected =>
    cases drained
    rw [collected] at flags errors
    cases stop with
    | outOfFuel => simpa [Answer.Ended, Answer.error?] using flags
    | failed error =>
        -- Pulls do not look at what is left in the queue.
        have pulled : ∀ count, error ≠ .unusedInputs count := by
          rintro count rfl
          cases errors _ rfl
        have unended : ¬ (Answer.drained (.error (.failed error))).Ended := by
          cases error with
          | unusedInputs count => exact absurd rfl (pulled count)
          | _ => exact id
        simpa [unended, Answer.error?] using flags
  case h_2 outputs after collected =>
    rw [collected] at flags
    split at drained
    · cases drained
      simpa [Answer.Ended, Answer.error?] using flags
    · cases drained
      simpa [Answer.Ended, Answer.error?] using flags

/-- A word that is refused is no fault of an instruction, even where it is too long to be shown. -/
theorem refused_is_no_trap (value : Int) (trap : Trap) :
    (Error.inputOutOfRange value).raised ≠ .trap trap := by
  unfold Error.raised
  split <;> simp

/-- Whatever is requested, a reset apart, an execution has halted or faulted after it if it had
before or if the answer says so. -/
theorem serve_flags (execution : Execution) (request : Request) (unreset : request ≠ .reset) :
    ((execution.serve request).2.halted = true ↔
      execution.halted = true ∨ (execution.serve request).1.Ended) ∧
    ∀ trap, (execution.serve request).2.fault = some trap ↔
      execution.fault = some trap ∨ (execution.serve request).1.error? = some (.trap trap) := by
  cases request with
  | push value =>
      by_cases fits : Word.Fits value
      · simp [serve, push, fits, Answer.Ended, Answer.error?]
      · simp [serve, push, fits, Answer.Ended, Answer.error?, refused_is_no_trap]
  | extend values =>
      cases accepted : acceptInputs values with
      | ok words => simp [serve, pushAll, accepted, Except.map, Answer.Ended, Answer.error?]
      | error error =>
          rcases accept_inputs_error values error accepted with ⟨value, _, _, rfl⟩
          simp [serve, pushAll, accepted, Except.map, Answer.Ended, Answer.error?,
            refused_is_no_trap]
  | pull fuel =>
      generalize pulled : execution.pull fuel = result
      obtain ⟨outcome, next⟩ := result
      have flags := pull_flags fuel execution next outcome pulled
      simp only [serve, pulled]
      cases outcome with
      | ok result => cases result <;> simpa [Answer.Ended, Answer.error?] using flags
      | error stop => cases stop <;> simpa [Answer.Ended, Answer.error?] using flags
  | drain fuel => exact drain_flags fuel execution _ _ rfl
  | setTracing tracing => simp [serve, setTracing, Answer.Ended, Answer.error?]
  | forgetTrace => simp [serve, forgetTrace, Answer.Ended, Answer.error?]
  | reset => exact absurd rfl unreset

theorem session_flags (execution : Execution) (requests : List Request)
    (unreset : .reset ∉ requests) :
    ((execution.session requests).2.halted = true ↔
      execution.halted = true ∨ ∃ answer ∈ (execution.session requests).1, answer.Ended) ∧
    ∀ trap, (execution.session requests).2.fault = some trap ↔
      execution.fault = some trap ∨
        ∃ answer ∈ (execution.session requests).1, answer.error? = some (.trap trap) := by
  induction requests generalizing execution with
  | nil => simp [session]
  | cons request requests ih =>
      rw [List.mem_cons, not_or] at unreset
      have here := serve_flags execution request (Ne.symm unreset.1)
      have later := ih (execution.serve request).2 unreset.2
      simp only [session]
      constructor
      · simp only [later.1, here.1, List.mem_cons, exists_eq_or_imp, or_assoc]
      · intro trap
        simp only [later.2, here.2, List.mem_cons, exists_eq_or_imp, or_assoc]

/-- What has ended has ended in one way. -/
def EndsOnce (execution : Execution) : Prop := execution.halted = true → execution.fault = none

theorem ends_once_kept : Kept EndsOnce where
  turn := by
    intro execution running _ halted
    have flags := turn_flags execution _ _ running rfl
    have ended := flags.1.mp halted
    cases faulted : execution.turn.2.fault with
    | none => rfl
    | some trap => exact absurd (ended.symm.trans ((flags.2 trap).mp faulted)) (by simp)
  feed := fun _ _ _ once => once
  setTracing := fun _ _ once => once
  forgetTrace := fun _ once => once
  reset := fun _ _ _ => rfl

/-! ## Resetting -/

theorem turn_reset (execution : Execution) : execution.turn.2.reset = execution.reset := by
  have relabelled := turn_relabel execution execution _ _ rfl
  exact congrArg (fun result => result.2.reset) relabelled

/-- A reset reads the image, the preloaded words and the options, and no request changes these. -/
theorem session_reset (execution : Execution) (requests : List Request) :
    (execution.session requests).2.reset = execution.reset := by
  have kept : Kept fun reached => reached.reset = execution.reset :=
    { turn := fun reached _ same => (turn_reset reached).trans same
      feed := fun _ _ _ same => same
      setTracing := fun _ _ same => same
      forgetTrace := fun _ same => same
      reset := fun _ same => same }
  exact session_keeps kept execution requests rfl

theorem session_options (execution : Execution) (requests : List Request) :
    (execution.session requests).2.options = execution.options := by
  have same := congrArg Execution.options (session_reset execution requests)
  exact same

/-- An execution does not both halt and fault. It has halted just when some answer said that the
program ended, and its fault is the one that some answer reported, so never an empty queue, unused
words, a refused word or the report of an earlier fault: errors that are no faults of an instruction
leave no fault. Once it has halted or faulted, every pull says so and changes nothing, whatever is
requested in between, and a reset leads back to the start from every state. -/
theorem ended_executions_stay_ended (image inputs : List Int) (options : Options)
    (fresh : Execution) (started : start image inputs options = .ok fresh)
    (requests : List Request) (unreset : .reset ∉ requests) :
    let answers := (fresh.session requests).1
    let reached := (fresh.session requests).2
    ¬ (reached.halted = true ∧ reached.fault.isSome = true) ∧
      (reached.halted = true ↔ ∃ answer ∈ answers, answer.Ended) ∧
      (∀ trap, reached.fault = some trap ↔
        ∃ answer ∈ answers, answer.error? = some (.trap trap)) ∧
      (∀ request error, request ≠ .reset → (reached.serve request).1.error? = some error →
        (∀ trap, error ≠ .trap trap) → (reached.serve request).2.fault = reached.fault) ∧
      (∀ later fuel, .reset ∉ later →
        let now := (reached.session later).2
        (reached.halted = true → now.pull fuel = (.ok none, now)) ∧
          ∀ trap, reached.fault = some trap →
            now.pull fuel = (.error (.failed (.stopped trap)), now)) ∧
      reached.reset = fresh := by
  intro answers reached
  have booted := (start_ok image inputs options fresh started).1
  have once (later : List Request) : (reached.session later).2.EndsOnce := by
    apply session_keeps ends_once_kept
    apply session_keeps ends_once_kept
    rw [booted]
    exact fun _ => rfl
  have flags := session_flags fresh requests unreset
  have unhalted : fresh.halted = false := by rw [booted]; rfl
  have faultless : fresh.fault = none := by rw [booted]; rfl
  refine ⟨?_, ?_, ?_, ?_, ?_, ?_⟩
  · intro both
    have healthy : reached.fault = none := once [] both.1
    exact absurd both.2 (by simp [healthy])
  · simpa [unhalted] using flags.1
  · simpa [faultless] using flags.2
  · intro request error kept reported untrapped
    have served := (serve_flags reached request kept).2
    apply Option.ext
    intro trap
    rw [served trap, reported]
    simp [untrapped trap]
  · intro later fuel laterUnreset now
    have laterFlags := session_flags reached later laterUnreset
    constructor
    · intro halted
      have stillHalted : now.halted = true := laterFlags.1.mpr (.inl halted)
      exact pull_halted fuel now (once later stillHalted) stillHalted
    · intro trap faulted
      have stillFaulted : now.fault = some trap := (laterFlags.2 trap).mpr (.inl faulted)
      exact pull_faulted fuel now trap stillFaulted
  · have initial : fresh.reset = fresh := by rw [booted]; rfl
    exact (session_reset fresh requests).trans initial

/-- A pull starves, one outputs, and one jumps below zero. After that words may be queued, and pulls
still report the jump. -/
theorem negative_jump_is_reported_again :
    let reached := ((boot [3, 0, 4, 0, 1105, 1, -7] [] {}).session
      [.pull 9, .push 5, .pull 9, .pull 9]).2
    reached.fault = some ⟨4, .negativeJump (-7)⟩ ∧
      ((reached.session [.push 6, .drain 9]).2.pull 9).1 =
        .error (.failed (.stopped ⟨4, .negativeJump (-7)⟩)) ∧
      reached.reset = boot [3, 0, 4, 0, 1105, 1, -7] [] {} := by
  intro reached
  obtain ⟨_, _, _, _, repeats, restarts⟩ := ended_executions_stay_ended
    [3, 0, 4, 0, 1105, 1, -7] [] {} _ rfl [.pull 9, .push 5, .pull 9, .pull 9] (by decide)
  have faulted : reached.fault = some ⟨4, .negativeJump (-7)⟩ := rfl
  have pulled := (repeats [.push 6, .drain 9] 9 (by decide)).2 _ faulted
  exact ⟨faulted, congrArg Prod.fst pulled, restarts⟩

end Execution

end Intcode
