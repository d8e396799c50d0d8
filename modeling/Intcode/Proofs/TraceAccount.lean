import Intcode.Proofs.Legibility
import Intcode.Proofs.StepLimit
import Intcode.Proofs.TraceErasure
import Intcode.Proofs.TurnHistory

/-!
# The trace is an account of the run

With the trace on, every instruction is noted once, with the registers as they were before it. An
input instruction is noted when it gets its word, however often it was tried before. Any other one
is noted before it is worked out, and may yet fail. So the entries are those of the instructions
that were executed, in order, and behind them, if the execution was stopped by the fault of an
instruction other than input, the entry of that instruction. All this is so for images whose words
can be written; with others, an instruction may fail because its line cannot be.
-/

set_option autoImplicit false

namespace Intcode

/-- The line of the entry starts with the pointer in six digits and ends with the pointer, the
relative base and the number of steps, the first two of them padded to six columns. -/
def TraceEntry.Shows (entry : TraceEntry) (registers : Registers) : Prop :=
  ∃ middle, entry.text =
    Text.zeroPadded 6 registers.ip ++ ": " ++ middle ++
      " IP=" ++ Text.padRight 6 (Text.decimal registers.ip) ++
      " RB=" ++ Text.padRight 6 (Text.decimal registers.base) ++
      " STEPS=" ++ Text.decimal registers.steps

namespace Machine

theorem entry_text (machine : Machine) (instruction : Instruction) :
    (machine.entry instruction).text = Text.zeroPadded 6 machine.registers.ip ++ ": " ++
      Text.padRight 32 (instruction.text (machine.entry instruction).operands) ++
      " IP=" ++ Text.padRight 6 (Text.decimal machine.registers.ip) ++
      " RB=" ++ Text.padRight 6 (Text.decimal machine.registers.base) ++
      " STEPS=" ++ Text.decimal machine.registers.steps := by
  have opening : " IP=" = " " ++ "IP=" := rfl
  rw [opening]
  simp only [TraceEntry.text, Registers.text, entry, String.append_assoc]

theorem entry_shows (machine : Machine) (instruction : Instruction) :
    (machine.entry instruction).Shows machine.registers :=
  ⟨_, machine.entry_text instruction⟩

theorem note_input (machine : Machine) (instruction : Instruction)
    (tracing : machine.tracing = true) (input : instruction.op = .input) :
    machine.note instruction = { machine with pending := some (machine.entry instruction) } := by
  simp [note, tracing, input]

theorem note_other (machine : Machine) (instruction : Instruction)
    (tracing : machine.tracing = true) (other : instruction.op ≠ .input) :
    machine.note instruction =
      { machine with trace := machine.trace.push (machine.entry instruction) } := by
  simp [note, tracing, other]

theorem apply_trace (machine : Machine) (effect : Effect) :
    (machine.apply effect).tracing = machine.tracing ∧
      (machine.apply effect).trace = machine.trace ∧
      (machine.apply effect).pending = machine.pending := by
  cases effect <;> exact ⟨rfl, rfl, rfl⟩

/-- An instruction waits for a word just when it is an input instruction. -/
theorem effect_awaits_iff (machine : Machine) (instruction : Instruction) (effect : Effect)
    (done : machine.effect instruction = .ok effect) :
    instruction.op = .input ↔ ∃ target, effect.event = .needsInput target := by
  cases effect_executes machine instruction effect done with
  | jump condition check target op => cases condition <;> simp [op, Effect.event]
  | pass condition check target op => cases condition <;> simp [op, Effect.event]
  | _ => simp_all [Effect.event]

/-- The entries that a step adds to the trace itself. That of an input instruction is held back. -/
def notes (machine : Machine) : List TraceEntry :=
  match machine.fetch with
  | .error _ => []
  | .ok instruction => if instruction.op = .input then [] else [machine.entry instruction]

theorem note_trace (machine : Machine) (instruction : Instruction)
    (tracing : machine.tracing = true) (fetched : machine.fetch = .ok instruction) :
    (machine.note instruction).tracing = true ∧
      (machine.note instruction).trace.toList = machine.trace.toList ++ machine.notes ∧
      (instruction.op = .input →
        (machine.note instruction).pending = some (machine.entry instruction)) := by
  unfold notes
  rw [fetched]
  by_cases input : instruction.op = .input
  · rw [note_input machine instruction tracing input]
    simp [tracing, input]
  · rw [note_other machine instruction tracing input]
    simp [tracing, input]

theorem step_trace (machine : Machine) (tracing : machine.tracing = true)
    (recordable : ∀ instruction, machine.fetch = .ok instruction →
      machine.Recordable instruction) :
    machine.step.2.tracing = true ∧
      machine.step.2.trace.toList = machine.trace.toList ++ machine.notes ∧
      ∀ instruction, machine.fetch = .ok instruction → instruction.op = .input →
        machine.step.2.pending = some (machine.entry instruction) := by
  generalize stepped : machine.step = result
  obtain ⟨outcome, next⟩ := result
  cases step_steps machine next outcome stepped with
  | unfetched error fetched => simp [notes, fetched, tracing]
  | unrecorded instruction fetched unrecordable =>
      exact absurd (recordable instruction fetched) unrecordable
  | faulted instruction fault fetched failed =>
      obtain ⟨still, added, held⟩ := note_trace machine instruction tracing fetched
      refine ⟨still, added, ?_⟩
      intro other same
      cases fetched.symm.trans same
      exact held
  | executed instruction effect fetched done =>
      obtain ⟨still, added, held⟩ := note_trace machine instruction tracing fetched
      obtain ⟨sameTracing, sameTrace, samePending⟩ :=
        apply_trace (machine.note instruction) effect
      dsimp only
      rw [sameTracing, sameTrace, samePending]
      refine ⟨still, added, ?_⟩
      intro other same
      cases fetched.symm.trans same
      exact held

/-- Completing an input instruction notes the entry that it held back. -/
theorem supply_trace (machine : Machine) (target : Nat) (word : Int) :
    (machine.supply target word).tracing = machine.tracing ∧
      (machine.supply target word).trace.toList =
        machine.trace.toList ++ machine.pending.toList := by
  cases pending : machine.pending with
  | none => simp [supply_eq, Machine.completed, advance, pending]
  | some entry => simp [supply_eq, Machine.completed, advance, pending]

/-- A step that reports an event has executed the instruction at the pointer, and asks for input
just when that is an input instruction. -/
theorem step_event (machine next : Machine) (event : Event)
    (stepped : machine.step = (.ok event, next)) :
    ∃ instruction, machine.fetch = .ok instruction ∧
      (instruction.op = .input ↔ ∃ target, event = .needsInput target) := by
  generalize reported : (Except.ok event : Except Error Event) = outcome at stepped
  cases step_steps machine next outcome stepped with
  | unfetched error fetched => exact absurd reported (by simp)
  | unrecorded instruction fetched unrecordable => exact absurd reported (by simp)
  | faulted instruction fault fetched failed => exact absurd reported (by simp)
  | executed instruction effect fetched done =>
      cases reported
      exact ⟨instruction, fetched, effect_awaits_iff machine instruction effect done⟩

end Machine

namespace Execution

/-! ## Turns -/

/-- The entries that a turn adds to the trace. That of an input instruction is added with the word
that completes it. -/
def noted (turn : Execution) : List TraceEntry :=
  match turn.machine.fetch with
  | .error _ => []
  | .ok instruction =>
      if instruction.op = .input ∧ turn.handover? = none then []
      else [turn.machine.entry instruction]

/-- Whether a turn executes an instruction to its end. -/
def Executes (turn : Execution) : Prop := completed turn.turn.1 = 1

instance (turn : Execution) : Decidable turn.Executes :=
  inferInstanceAs (Decidable (_ = _))

/-- The turns that execute an instruction to its end. -/
def executed (turns : List Execution) : List Execution := turns.filter fun turn => turn.Executes

theorem turn_notes (execution : Execution) (legible : execution.Legible)
    (tracing : execution.machine.tracing = true) :
    execution.turn.2.machine.tracing = true ∧
      execution.turn.2.machine.trace.toList =
        execution.machine.trace.toList ++ execution.noted := by
  obtain ⟨still, added, held⟩ := Machine.step_trace execution.machine tracing
    fun instruction _ => legible.machine.recordable instruction
  rw [(turn_handover execution).1]
  cases handed : execution.handover? with
  | none =>
      refine ⟨still, added.trans ?_⟩
      simp [noted, Machine.notes, handed]
  | some handover =>
      obtain ⟨target, word⟩ := handover
      have asked := ((handover_iff execution target word).mp handed).1
      obtain ⟨instruction, fetched, awaits⟩ :=
        Machine.step_event execution.machine _ _ (Prod.ext asked rfl)
      have input := awaits.mpr ⟨target, rfl⟩
      obtain ⟨sameTracing, recorded⟩ :=
        Machine.supply_trace execution.machine.step.2 target word
      dsimp only
      rw [sameTracing, recorded, added, held instruction fetched input]
      refine ⟨still, ?_⟩
      simp [noted, Machine.notes, fetched, input, handed]

theorem executing_turn_noted (execution : Execution) (executes : execution.Executes) :
    ∃ instruction, execution.machine.fetch = .ok instruction ∧
      execution.noted = [execution.machine.entry instruction] := by
  generalize turned : execution.turn = result
  obtain ⟨outcome, next⟩ := result
  have counts : completed outcome = 1 := by
    rw [Executes, turned] at executes
    exact executes
  have uninput (event : Event) (machine : Machine)
      (step : execution.machine.step = (.ok event, machine))
      (quiet : ∀ target, event ≠ .needsInput target) :
      ∃ instruction, execution.machine.fetch = .ok instruction ∧
        execution.noted = [execution.machine.entry instruction] := by
    obtain ⟨instruction, fetched, awaits⟩ := Machine.step_event _ machine event step
    have other : instruction.op ≠ .input := by
      intro input
      obtain ⟨target, same⟩ := awaits.mp input
      exact quiet target same
    exact ⟨instruction, fetched, by simp [noted, fetched, other]⟩
  cases turn_turns execution next outcome turned with
  | trapped trap machine step => exact absurd counts (by simp [completed])
  | failed error machine step untrapped => exact absurd counts (by simp [completed])
  | continued machine step => exact uninput _ machine step (by simp)
  | output word machine step => exact uninput _ machine step (by simp)
  | halted machine step => exact uninput _ machine step (by simp)
  | starved target machine step empty => exact absurd counts (by simp [completed])
  | fed target machine word queue step queued =>
      obtain ⟨instruction, fetched, _⟩ := Machine.step_event _ machine _ step
      have handed : execution.handover? = some (target, word) := by simp [handover?, step, queued]
      exact ⟨instruction, fetched, by simp [noted, fetched, handed]⟩

/-- A turn that fails without a fault has fetched nothing, or an input instruction. -/
theorem failing_turn_noted (execution next : Execution) (error : Error)
    (legible : execution.Legible)
    (turned : execution.turn = (some (.error error), next))
    (untrapped : ∀ trap, error ≠ .trap trap) : execution.noted = [] := by
  generalize reported : (some (Except.error error) : Option (Except Error (Option Int))) = outcome
    at turned
  cases turn_turns execution next outcome turned with
  | trapped trap machine step =>
      cases reported
      exact absurd rfl (untrapped trap)
  | failed cause machine step _ =>
      cases reported
      rcases Machine.step_error _ machine error step with ⟨fault, same⟩ | ⟨_, fetched⟩ | rfl
      · exact absurd same (untrapped _)
      · simp [noted, fetched]
      · exact absurd rfl (Machine.step_legible _ machine _ step legible.machine).2
  | starved target machine step empty =>
      obtain ⟨instruction, fetched, awaits⟩ := Machine.step_event _ machine _ step
      have input := awaits.mpr ⟨target, rfl⟩
      simp [noted, fetched, input, handover?, step, empty]
  | _ => exact absurd reported (by simp)

/-- The instruction that a turn fetches faults while it is worked out. -/
def FaultsIn (turn : Execution) (instruction : Instruction) (trap : Trap) : Prop :=
  turn.machine.fetch = .ok instruction ∧
    turn.machine.effect instruction = .error trap.fault ∧ trap.pointer = turn.machine.registers.ip

/-- A turn that faults has noted the instruction, if it fetched one and that is no input
instruction. -/
theorem trapped_turn_noted (execution next : Execution) (trap : Trap)
    (turned : execution.turn = (some (.error (.trap trap)), next)) :
    (∃ instruction, execution.FaultsIn instruction trap ∧ instruction.op ≠ .input ∧
        execution.noted = [execution.machine.entry instruction]) ∨
      execution.noted = [] ∧
        ∀ instruction, execution.FaultsIn instruction trap → instruction.op = .input := by
  generalize reported : (some (Except.error (Error.trap trap)) :
    Option (Except Error (Option Int))) = outcome at turned
  cases turn_turns execution next outcome turned with
  | trapped cause machine step =>
      cases reported
      generalize failed : (Except.error (Error.trap trap) : Except Error Event) = report at step
      have unhanded : execution.handover? = none := by simp [handover?, step, ← failed]
      cases Machine.step_steps _ machine report step with
      | unfetched error fetched =>
          refine .inr ⟨by simp [noted, fetched], ?_⟩
          rintro instruction ⟨other, _⟩
          exact absurd (fetched.symm.trans other) (by simp)
      | unrecorded => exact absurd failed (by simp)
      | faulted instruction fault fetched refused =>
          rcases Machine.report_cases execution.machine.registers.ip fault with same | same
          all_goals rw [same] at failed
          all_goals cases failed
          by_cases input : instruction.op = .input
          · refine .inr ⟨by simp [noted, fetched, input, unhanded], ?_⟩
            rintro other ⟨same, _⟩
            cases fetched.symm.trans same
            exact input
          · exact .inl ⟨instruction, ⟨fetched, refused, rfl⟩, input,
              by simp [noted, fetched, input]⟩
      | executed => exact absurd failed (by simp)
  | failed error machine step untrapped =>
      cases reported
      exact absurd rfl (untrapped trap)
  | _ => exact absurd reported (by simp)

/-! ## The account -/

theorem executed_append (earlier : List Execution) (turn : Execution) :
    executed (earlier ++ [turn]) =
      executed earlier ++ if turn.Executes then [turn] else [] := by
  by_cases executes : turn.Executes <;> simp [executed, executes]

/-- What the trace says about the turns so far: the executed ones are noted and nothing else, unless
the last one faulted. -/
structure Accounted (turns : List Execution) (reached : Execution) : Prop where
  legible : reached.Legible
  tracing : reached.machine.tracing = true
  steps : reached.steps = (executed turns).length
  counted : ∀ (index : Nat) (turn : Execution),
    (executed turns)[index]? = some turn → turn.steps = index
  running : reached.fault = none →
    reached.machine.trace.toList = (executed turns).flatMap noted
  stopped : ∀ trap, reached.fault = some trap → ∃ last, turns.getLast? = some last ∧
    last.turn.1 = some (.error (.trap trap)) ∧
    reached.machine.trace.toList = (executed turns).flatMap noted ++ last.noted

section Turning

variable {turns : List Execution} {execution next : Execution}

theorem Accounted.execute (accounted : Accounted turns execution) (running : execution.Running)
    (outcome : Option (Except Error (Option Int))) (turned : execution.turn = (outcome, next))
    (completes : completed outcome = 1) : Accounted (turns ++ [execution]) next := by
  have legible := (turn_legible execution next _ turned accounted.legible).1
  obtain ⟨tracing, added⟩ := turn_notes execution accounted.legible accounted.tracing
  rw [turned] at tracing added
  have counts := (turn_counts execution next outcome turned).1
  have executes : execution.Executes := by
    rw [Executes, turned]
    exact completes
  have now : executed (turns ++ [execution]) = executed turns ++ [execution] := by
    rw [executed_append, if_pos executes]
  refine ⟨legible, tracing, ?_, ?_, ?_, ?_⟩
  · rw [now, List.length_append, List.length_singleton, counts, completes, accounted.steps]
  · intro index turn present
    rw [now, List.getElem?_append] at present
    split at present
    case isTrue before => exact accounted.counted index turn present
    case isFalse beyond =>
      obtain ⟨here, rfl⟩ := List.getElem?_eq_some_iff.mp present
      rw [List.getElem_singleton, accounted.steps]
      rw [List.length_singleton] at here
      omega
  · intro _
    rw [now, added, accounted.running running.faultless, List.flatMap_append,
      List.flatMap_singleton]
  · intro trap faulted
    have reported := ((turn_flags execution next outcome running turned).2 trap).mp faulted
    rw [reported] at completes
    exact absurd completes (by simp [completed])

theorem Accounted.fail (accounted : Accounted turns execution) (running : execution.Running)
    (error : Error) (turned : execution.turn = (some (.error error), next)) :
    Accounted (turns ++ [execution]) next := by
  have legible := (turn_legible execution next _ turned accounted.legible).1
  obtain ⟨tracing, added⟩ := turn_notes execution accounted.legible accounted.tracing
  rw [turned] at tracing added
  rw [accounted.running running.faultless] at added
  obtain ⟨_, faults⟩ := turn_flags execution next _ running turned
  have counts := (turn_counts execution next _ turned).1
  have now : executed (turns ++ [execution]) = executed turns := by
    rw [executed_append, if_neg (by simp [Executes, turned, completed]), List.append_nil]
  refine ⟨legible, tracing, ?_, ?_, ?_, ?_⟩
  · rw [now, counts, accounted.steps]
    rfl
  · rw [now]
    exact accounted.counted
  · intro faultless
    have nothing : execution.noted = [] := by
      apply failing_turn_noted execution next error accounted.legible turned
      rintro trap rfl
      exact absurd (faultless.symm.trans ((faults trap).mpr rfl)) (by simp)
    rw [now, added, nothing, List.append_nil]
  · intro trap faulted
    refine ⟨execution, List.getLast?_concat, ?_, ?_⟩
    · rw [turned]
      exact (faults trap).mp faulted
    · rw [now, added]

end Turning

theorem Accounted.turn (turns : List Execution) (execution : Execution)
    (running : execution.Running) (accounted : Accounted turns execution) :
    Accounted (turns ++ [execution]) execution.turn.2 := by
  generalize turned : execution.turn = result
  obtain ⟨outcome, next⟩ := result
  cases outcome with
  | none => exact accounted.execute running none turned rfl
  | some ending =>
      cases ending with
      | ok result => exact accounted.execute running _ turned rfl
      | error error => exact accounted.fail running error turned

/-- Requests that are neither resets nor about the trace keep the account. -/
theorem Accounted.serve (turns : List Execution) (execution : Execution) (request : Request)
    (accounted : Accounted turns execution) (unreset : request ≠ .reset)
    (untouched : request.onTrace = false) :
    Accounted (turns ++ execution.serveHistory request) (execution.serve request).2 := by
  have fed (words : List Int) (fits : ∀ word ∈ words, Word.Fits word) :
      Accounted (turns ++ []) (execution.feed words) := by
    rw [List.append_nil]
    exact ⟨legible_kept.feed execution words fits accounted.legible, accounted.tracing,
      accounted.steps, accounted.counted, accounted.running, accounted.stopped⟩
  cases request with
  | push value =>
      rw [serve_push]
      exact fed _ (Request.words_fit _)
  | extend values =>
      rw [serve_extend]
      exact fed _ (Request.words_fit _)
  | pull fuel => exact (pull_path fuel execution).invariant Accounted.turn turns accounted
  | drain fuel => exact (drain_path fuel execution).invariant Accounted.turn turns accounted
  | reset => exact absurd rfl unreset
  | setTracing tracing => exact absurd untouched (by simp [Request.onTrace])
  | forgetTrace => exact absurd untouched (by simp [Request.onTrace])

theorem Accounted.session (turns : List Execution) (execution : Execution)
    (requests : List Request) (accounted : Accounted turns execution)
    (unreset : .reset ∉ requests)
    (untouched : ∀ request ∈ requests, request.onTrace = false) :
    Accounted (turns ++ execution.history requests) (execution.session requests).2 := by
  induction requests generalizing turns execution with
  | nil =>
      rw [history, List.append_nil]
      exact accounted
  | cons request requests ih =>
      rw [List.mem_cons, not_or] at unreset
      rw [List.forall_mem_cons] at untouched
      have served := accounted.serve turns execution request (Ne.symm unreset.1) untouched.1
      have later := ih _ _ served unreset.2 untouched.2
      rw [List.append_assoc] at later
      exact later

theorem boot_accounted (image inputs : List Int) (options : Options)
    (writable : ∀ word ∈ image, Text.Writable word) (fits : ∀ word ∈ inputs, Word.Fits word)
    (tracing : options.trace = true) : Accounted [] (boot image inputs options) := by
  refine ⟨boot_legible image inputs options writable fits, tracing, rfl, by simp [executed],
    fun _ => rfl, ?_⟩
  intro trap faulted
  exact absurd faulted (by simp [boot])

/-- Each executed turn has one entry, at its place. -/
theorem executed_lines (turns : List Execution) (all : ∀ turn ∈ turns, turn.Executes) :
    (turns.flatMap noted).length = turns.length ∧
      ∀ (index : Nat) (turn : Execution), turns[index]? = some turn →
        ∃ instruction, turn.machine.fetch = .ok instruction ∧
          (turns.flatMap noted)[index]? = some (turn.machine.entry instruction) := by
  induction turns with
  | nil => simp
  | cons first turns ih =>
      rw [List.forall_mem_cons] at all
      obtain ⟨length, lines⟩ := ih all.2
      obtain ⟨instruction, fetched, single⟩ := executing_turn_noted first all.1
      rw [List.flatMap_cons, single]
      refine ⟨by simp [length], ?_⟩
      intro index turn present
      cases index with
      | zero =>
          cases present
          exact ⟨instruction, fetched, rfl⟩
      | succ index => exact lines index turn present

/-- The execution was stopped by the fault of an instruction, other than an input instruction, that
the last of these turns had decoded. -/
def StoppedIn (turns : List Execution) (reached turn : Execution) (instruction : Instruction) :
    Prop :=
  turns.getLast? = some turn ∧ instruction.op ≠ .input ∧
    ∃ trap, reached.fault = some trap ∧ turn.FaultsIn instruction trap

/-- Behind the entries of the executed turns there is the entry of the instruction that stopped the
execution, if there is one that was decoded and is no input instruction. -/
theorem Accounted.lines {turns : List Execution} {reached : Execution}
    (accounted : Accounted turns reached) :
    ∃ more, reached.machine.trace.toList = (executed turns).flatMap noted ++ more ∧
      ((∃ turn instruction, StoppedIn turns reached turn instruction ∧
          more = [turn.machine.entry instruction]) ∨
        more = [] ∧ ∀ turn instruction, ¬ StoppedIn turns reached turn instruction) := by
  cases faulted : reached.fault with
  | none =>
      refine ⟨[], by rw [List.append_nil]; exact accounted.running faulted, .inr ⟨rfl, ?_⟩⟩
      rintro turn instruction ⟨_, _, trap, fault, _⟩
      exact absurd (faulted.symm.trans fault) (by simp)
  | some trap =>
      obtain ⟨last, isLast, reported, behind⟩ := accounted.stopped trap faulted
      refine ⟨last.noted, behind, ?_⟩
      rcases trapped_turn_noted last _ trap (Prod.ext reported rfl) with
        ⟨instruction, faults, other, single⟩ | ⟨nothing, unnoted⟩
      · exact .inl ⟨last, instruction, ⟨isLast, other, trap, faulted, faults⟩, single⟩
      · refine .inr ⟨nothing, ?_⟩
        rintro turn instruction ⟨same, other, cause, fault, faults⟩
        cases isLast.symm.trans same
        cases faulted.symm.trans fault
        exact other (unnoted instruction faults)

theorem StoppedIn.unique {turns : List Execution} {reached left right : Execution}
    {instruction another : Instruction} (stopped : StoppedIn turns reached left instruction)
    (others : StoppedIn turns reached right another) :
    left = right ∧ instruction = another := by
  obtain ⟨isLast, _, _, _, fetched, _⟩ := stopped
  obtain ⟨same, _, _, _, sameFetched, _⟩ := others
  cases isLast.symm.trans same
  exact ⟨rfl, Except.ok.inj (fetched.symm.trans sameFetched)⟩

/-- Let the words of the image be such that they can be written, as all that fit a word are. With
the trace on, and not switched or forgotten since the last reset, the trace is an exact account of
the run. The number of steps is the number of turns that executed an instruction. The entry at each
place is that of the turn at this place: its line shows the registers that the machine had before
the instruction, with as many steps as there are entries before it. There are as many entries as
steps, but for one case: if the execution was stopped by the fault of an instruction that its last
turn had decoded, and that is no input instruction, the entry of this instruction is there too, at
the end. -/
theorem trace_accounts_for_the_run (image inputs : List Int) (options : Options)
    (fresh : Execution) (started : start image inputs options = .ok fresh)
    (writable : ∀ word ∈ image, Text.Writable word)
    (tracing : options.trace = true) (requests : List Request)
    (untouched : ∀ request ∈ sinceReset requests, request.onTrace = false) :
    let reached := (fresh.session requests).2
    let turns := fresh.history (sinceReset requests)
    let lines := reached.machine.trace.toList
    reached.steps = (executed turns).length ∧
      (∀ (index : Nat) (turn : Execution), (executed turns)[index]? = some turn →
        turn.steps = index ∧ ∃ instruction, turn.machine.fetch = .ok instruction ∧
          lines[index]? = some (turn.machine.entry instruction) ∧
          (turn.machine.entry instruction).Shows turn.machine.registers) ∧
      (lines.length = reached.steps ∨ lines.length = reached.steps + 1) ∧
      (lines.length = reached.steps + 1 ↔
        ∃ turn instruction, StoppedIn turns reached turn instruction) ∧
      ∀ turn instruction, StoppedIn turns reached turn instruction →
        lines.getLast? = some (turn.machine.entry instruction) := by
  intro reached turns lines
  obtain ⟨booted, fits⟩ := start_ok image inputs options fresh started
  have sinceBoot : reached = (fresh.session (sinceReset requests)).2 :=
    session_since_reset fresh requests (by rw [booted]; rfl)
  have accounted : Accounted turns reached := by
    have freshAccounted : Accounted [] fresh :=
      booted ▸ boot_accounted image inputs options writable fits tracing
    rw [sinceBoot]
    exact freshAccounted.session [] fresh _ (reset_not_mem_since_reset requests) untouched
  obtain ⟨length, entries⟩ := executed_lines (executed turns) (by simp [executed])
  have steps := accounted.steps
  obtain ⟨more, behind, extra⟩ : ∃ more, lines = (executed turns).flatMap noted ++ more ∧ _ :=
    accounted.lines
  have total : lines.length = reached.steps + more.length := by
    rw [behind, List.length_append, length, steps]
  refine ⟨steps, ?_, ?_⟩
  · intro index turn present
    obtain ⟨instruction, fetched, line⟩ := entries index turn present
    refine ⟨accounted.counted index turn present, instruction, fetched, ?_,
      turn.machine.entry_shows instruction⟩
    rw [behind, List.getElem?_append_left (List.getElem?_eq_some_iff.mp line).1]
    exact line
  rcases extra with ⟨last, found, stopped, rfl⟩ | ⟨rfl, unstopped⟩
  · refine ⟨.inr total, ⟨fun _ => ⟨last, found, stopped⟩, fun _ => total⟩, ?_⟩
    intro turn instruction others
    obtain ⟨rfl, rfl⟩ := stopped.unique others
    rw [behind, List.getLast?_concat]
  · refine ⟨.inl total, ⟨?_, ?_⟩, ?_⟩
    · intro longer
      exact absurd (total.symm.trans longer) (by simp)
    · rintro ⟨turn, instruction, stopped⟩
      exact absurd stopped (unstopped turn instruction)
    · intro turn instruction stopped
      exact absurd stopped (unstopped turn instruction)

/-- The input instruction starves twice and is noted once. The jump below zero is noted before it
fails, and is not counted. -/
theorem negative_jump_is_noted :
    let fresh := boot [3, 0, 4, 0, 1105, 1, -7] [] { trace := true }
    let requests : List Request := [.pull 9, .pull 9, .push 5, .pull 9, .pull 9]
    let reached := (fresh.session requests).2
    reached.steps = 2 ∧ reached.machine.trace.size = 3 ∧
      ∃ turn instruction, StoppedIn (fresh.history requests) reached turn instruction ∧
        reached.machine.trace.toList.getLast? = some (turn.machine.entry instruction) := by
  intro fresh requests
  obtain ⟨_, _, _, longer, extra⟩ := trace_accounts_for_the_run [3, 0, 4, 0, 1105, 1, -7] []
    { trace := true } fresh rfl (by decide) rfl requests (by decide)
  have steps : (fresh.session requests).2.steps = 2 := by decide
  have size : (fresh.session requests).2.machine.trace.size = 3 := by decide
  obtain ⟨turn, instruction, stopped⟩ := longer.mp (by rw [Array.length_toList, size, steps])
  exact ⟨steps, size, turn, instruction, stopped, extra turn instruction stopped⟩

end Execution

end Intcode
