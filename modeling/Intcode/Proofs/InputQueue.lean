import Intcode.Proofs.TurnHistory

/-!
# Inputs reach the program in order

Every word that was preloaded or accepted is handed over to an input instruction once, in the order
of acceptance, or is still in the queue; what is handed over is written to memory at the address
that the instruction asks for. Words that are refused never enter the queue, and a batch with one
bad word is refused as a whole. A drain complains of the words that a halted program has left.
-/

set_option autoImplicit false

namespace Intcode

/-- The words that a request asks to queue. -/
def Request.offered : Request → List Int
  | .push value => [value]
  | .extend values => values
  | .pull _ | .drain _ | .setTracing _ | .forgetTrace | .reset => []

namespace Execution

/-! ## Conservation -/

theorem Path.queue {first last : Execution} {turns : List Execution}
    (path : Path first turns last) : handedOver turns ++ last.queue = first.queue := by
  induction path with
  | stay execution => rfl
  | turn execution last later running rest ih =>
      rw [← (turn_handover execution).2, ← ih, handedOver, List.flatMap_cons, List.append_assoc]
      rfl

theorem history_queue (execution : Execution) (requests : List Request)
    (unreset : .reset ∉ requests) :
    handedOver (execution.history requests) ++ (execution.session requests).2.queue =
      execution.queue ++ requests.flatMap Request.words := by
  induction requests generalizing execution with
  | nil => simp [history, handedOver, session]
  | cons request requests ih =>
      rw [List.mem_cons, not_or] at unreset
      obtain ⟨last, path, queue, _⟩ := serve_path execution request (Ne.symm unreset.1)
      have later := ih (execution.serve request).2 unreset.2
      rw [queue] at later
      have now := path.queue
      calc handedOver (execution.history (request :: requests)) ++
            (execution.session (request :: requests)).2.queue
          = handedOver (execution.serveHistory request) ++
              (handedOver ((execution.serve request).2.history requests) ++
                ((execution.serve request).2.session requests).2.queue) := by
            simp only [history, handedOver, List.flatMap_append, List.append_assoc]
            rfl
        _ = handedOver (execution.serveHistory request) ++ last.queue ++
              (request.words ++ requests.flatMap Request.words) := by
            rw [later]
            simp only [List.append_assoc]
        _ = execution.queue ++ (request :: requests).flatMap Request.words := by
            rw [now, List.flatMap_cons]

/-! ## Refusals -/

theorem serve_refused (execution : Execution) (request : Request)
    (misfit : ∃ value ∈ request.offered, ¬ Word.Fits value) :
    request.words = [] ∧ ∃ value ∈ request.offered, ¬ Word.Fits value ∧
      execution.serve request = (.refused (Error.inputOutOfRange value).raised, execution) := by
  obtain ⟨misfit, member, unfit⟩ := misfit
  cases request with
  | push value =>
      cases List.mem_singleton.mp member
      refine ⟨if_neg unfit, misfit, member, unfit, ?_⟩
      simp [serve, push, unfit]
  | extend values =>
      have bad : ¬ ∀ value ∈ values, Word.Fits value := fun fits => unfit (fits misfit member)
      refine ⟨if_neg bad, ?_⟩
      cases accepted : acceptInputs values with
      | ok words => exact absurd (accept_inputs_ok values words accepted).2 bad
      | error error =>
          obtain ⟨value, inside, outOfRange, rfl⟩ := accept_inputs_error values error accepted
          exact ⟨value, inside, outOfRange, by simp [serve, pushAll, accepted, Except.map]⟩
  | pull fuel => exact absurd member (by simp [Request.offered])
  | drain fuel => exact absurd member (by simp [Request.offered])
  | setTracing tracing => exact absurd member (by simp [Request.offered])
  | forgetTrace => exact absurd member (by simp [Request.offered])
  | reset => exact absurd member (by simp [Request.offered])

theorem serve_accepted (execution : Execution) (request : Request)
    (fits : ∀ value ∈ request.offered, Word.Fits value) :
    request.words = request.offered ∧ ∀ error, (execution.serve request).1 ≠ .refused error := by
  cases request with
  | push value =>
      have fits := fits value (by simp [Request.offered])
      exact ⟨if_pos fits, by simp [serve, push, fits]⟩
  | extend values =>
      exact ⟨if_pos fits, by simp [serve, pushAll, accept_inputs_of_fits values fits, Except.map]⟩
  | pull fuel => exact ⟨rfl, by simp [serve]⟩
  | drain fuel => exact ⟨rfl, by simp [serve]⟩
  | setTracing tracing => exact ⟨rfl, by simp [serve]⟩
  | forgetTrace => exact ⟨rfl, by simp [serve]⟩
  | reset => exact ⟨rfl, by simp [serve]⟩

/-! ## What a drain finds left -/

theorem collect_halted (fuel : Nat) (execution : Execution) (outputs : Array Int)
    (faultless : execution.fault = none) (halted : execution.halted = true) :
    execution.collect (fuel + 1) outputs = (outputs, none, execution) := by
  rw [collect, pull_halted fuel execution faultless halted]
  rfl

/-- A drain that ends has halted the program, or found it halted, unless a pull failed. -/
theorem drain_unused_iff (fuel count : Nat) (execution : Execution)
    (once : execution.EndsOnce) :
    (execution.drain fuel).1 = .error (.failed (.unusedInputs count)) ↔
      (execution.drain fuel).1 ≠ .error .outOfFuel ∧ (execution.drain fuel).2.halted = true ∧
        (execution.drain fuel).2.options.refuseLeftovers = true ∧
        0 < count ∧ (execution.drain fuel).2.queue.length = count := by
  have flags := (collect_flags fuel execution #[]).1
  have errors := collect_error fuel execution #[]
  unfold drain
  generalize collected : execution.collect fuel #[] = result at flags errors
  obtain ⟨outputs, stop?, next⟩ := result
  cases stop? with
  | some stop =>
      simp only [Except.error.injEq, ne_eq]
      constructor
      · rintro rfl
        cases errors _ rfl
      · rintro ⟨inTime, halted, _⟩
        have already : execution.halted = true := by simpa using flags.mp halted
        cases fuel with
        | zero =>
            cases collected
            exact absurd rfl inTime
        | succ fuel =>
            rw [collect_halted fuel execution #[] (once already) already] at collected
            exact absurd (congrArg (fun result => result.2.1) collected) (by simp)
  | none =>
      have halted : next.halted = true := flags.mpr (.inr rfl)
      by_cases complains : (next.options.refuseLeftovers && !next.queue.isEmpty) = true
      · have asked := (Bool.and_eq_true_iff.mp complains).1
        have left : 0 < next.queue.length := by
          apply List.length_pos_iff.mpr
          simpa using (Bool.and_eq_true_iff.mp complains).2
        simp only [if_pos complains]
        constructor
        · intro same
          cases same
          exact ⟨by simp, halted, asked, left, rfl⟩
        · rintro ⟨_, _, _, _, same⟩
          rw [same]
      · simp only [if_neg complains]
        constructor
        · intro impossible
          exact absurd impossible (by simp)
        · rintro ⟨_, _, asked, positive, left⟩
          apply absurd _ complains
          rw [← left] at positive
          simpa [asked] using List.length_pos_iff.mp positive

/-- Of the words that an execution was started with and those accepted since its last reset, the
first ones have been handed over to input instructions, in this order, and the others are in the
queue. Each turn, now or later, completes the input instruction at the pointer with the word it
hands over, and takes no other word from the queue. A request to queue words is accepted as a whole
or, if one of them does not fit, refused as a whole. And a drain complains of unused words just when
it ends with the program halted and the options ask for it, and then of as many as were accepted and
never handed over. -/
theorem inputs_are_handed_over_in_order (image inputs : List Int) (options : Options)
    (fresh : Execution) (started : start image inputs options = .ok fresh)
    (requests : List Request) :
    let reached := (fresh.session requests).2
    let latest := sinceReset requests
    let accepted := inputs ++ latest.flatMap Request.words
    handedOver (fresh.history latest) ++ reached.queue = accepted ∧
      (∀ later, ∀ turn ∈ fresh.history (latest ++ later), turn.HandsOver) ∧
      (∀ request, (∀ value ∈ request.offered, Word.Fits value) →
        request.words = request.offered ∧ ∀ error, (reached.serve request).1 ≠ .refused error) ∧
      (∀ request, (∃ value ∈ request.offered, ¬ Word.Fits value) →
        request.words = [] ∧ ∃ value ∈ request.offered, ¬ Word.Fits value ∧
          reached.serve request = (.refused (Error.inputOutOfRange value).raised, reached)) ∧
      ∀ fuel count,
        (reached.drain fuel).1 = .error (.failed (.unusedInputs count)) ↔
          (reached.drain fuel).1 ≠ .error .outOfFuel ∧
            (reached.drain fuel).2.halted = true ∧ (reached.drain fuel).2.fault = none ∧
            options.refuseLeftovers = true ∧ 0 < count ∧
            (handedOver (fresh.history (latest ++ [.drain fuel]))).length + count =
              accepted.length := by
  intro reached latest accepted
  have booted := (start_ok image inputs options fresh started).1
  have initial : fresh.reset = fresh := by rw [booted]; rfl
  have queued : fresh.queue = inputs := by rw [booted]; rfl
  have fromLatest : reached = (fresh.session latest).2 :=
    session_since_reset fresh requests initial
  have unreset := reset_not_mem_since_reset requests
  have once : reached.EndsOnce := by
    apply session_keeps ends_once_kept
    rw [booted]
    exact fun _ => rfl
  refine ⟨?_, ?_, ?_, ?_, ?_⟩
  · rw [fromLatest, history_queue fresh latest unreset, queued]
  · intro later turn member
    exact turn_hands_over turn
  · intro request fits
    exact serve_accepted reached request fits
  · intro request misfit
    exact serve_refused reached request misfit
  · intro fuel count
    have conserved := history_queue fresh (latest ++ [.drain fuel]) (by simp [latest, unreset])
    have drained : (fresh.session (latest ++ [.drain fuel])).2 = (reached.drain fuel).2 := by
      rw [session_append, ← fromLatest]
      rfl
    have total : (handedOver (fresh.history (latest ++ [.drain fuel]))).length +
        (reached.drain fuel).2.queue.length = accepted.length := by
      rw [← List.length_append, ← drained, conserved, queued, List.flatMap_append]
      simp [accepted, Request.words]
    have sameOptions : (reached.drain fuel).2.options = options := by
      rw [← drained, session_options, booted]
      rfl
    have drainedOnce : (reached.drain fuel).2.EndsOnce :=
      drain_keeps ends_once_kept.turn fuel reached once
    rw [drain_unused_iff fuel count reached once, sameOptions]
    constructor
    · rintro ⟨inTime, halted, asked, positive, left⟩
      exact ⟨inTime, halted, drainedOnce halted, asked, positive, by omega⟩
    · rintro ⟨inTime, halted, _, asked, positive, left⟩
      exact ⟨inTime, halted, asked, positive, by omega⟩

/-- One word is read and three are accepted. The word that is read is written over the instruction
that asks for it. A batch with a word that does not fit comes in between and is refused; a drain
reads one more word. -/
theorem drain_finds_the_third_word :
    let requests : List Request := [.pull 9, .extend [6, 9223372036854775808], .extend [7, 8]]
    let fresh := boot [3, 0, 3, 1, 99] [5] {}
    let reached := (fresh.session requests).2
    reached.machine.memory.get 0 = 5 ∧ reached.queue = [7, 8] ∧
      handedOver (fresh.history requests) ++ reached.queue = [5, 7, 8] ∧
      (∀ turn ∈ fresh.history (requests ++ [.drain 9]), turn.HandsOver) ∧
      (reached.drain 9).1 = .error (.failed (.unusedInputs 1)) := by
  obtain ⟨conserved, handed, _, _, complains⟩ := inputs_are_handed_over_in_order [3, 0, 3, 1, 99]
    [5] {} _ rfl [.pull 9, .extend [6, 9223372036854775808], .extend [7, 8]]
  exact ⟨rfl, rfl, conserved, handed [.drain 9],
    (complains 9 1).mpr ⟨by decide, rfl, rfl, rfl, by decide, rfl⟩⟩

end Execution

end Intcode
