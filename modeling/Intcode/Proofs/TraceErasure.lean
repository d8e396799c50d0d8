import Intcode.Proofs.Legibility
import Intcode.Proofs.Pulls

/-!
# Tracing leaves no mark

The trace is written in the middle of a step, before the instruction is worked out, and the entry of
an input instruction waits in the machine for a word. None of it is ever read by a step, and with an
image whose words can be written no trace line fails: a machine whose trace is erased, and that
keeps none, takes the same steps. So a session in which the trace is switched on and off and
forgotten at any time has the answers and comes to the states of the session without these requests
and without a trace.
-/

set_option autoImplicit false

namespace Intcode

/-- Whether a request is about the trace alone. -/
def Request.onTrace : Request → Bool
  | .setTracing _ | .forgetTrace => true
  | .push _ | .extend _ | .pull _ | .drain _ | .reset => false

/-- The requests that are not about the trace. -/
def withoutTrace (requests : List Request) : List Request :=
  requests.filter fun request => !request.onTrace

/-- The answers to the requests that are not about the trace. -/
def answersWithoutTrace (requests : List Request) (answers : List Answer) : List Answer :=
  ((requests.zip answers).filter fun exchange => !exchange.1.onTrace).map Prod.snd

namespace Machine

/-- The machine without a trace, and with none to come. -/
def untraced (machine : Machine) : Machine :=
  { machine with tracing := false, trace := #[], pending := none }

theorem note_untraced (machine : Machine) (instruction : Instruction) :
    (machine.note instruction).untraced = machine.untraced := by
  unfold note
  split
  · split <;> rfl
  · rfl

theorem untraced_note (machine : Machine) (instruction : Instruction) :
    machine.untraced.note instruction = machine.untraced := by
  simp [note, untraced]

theorem apply_untraced (machine : Machine) (effect : Effect) :
    machine.untraced.apply effect = (machine.apply effect).untraced := by
  cases effect <;> rfl

theorem supply_untraced (machine : Machine) (target : Nat) (word : Int) :
    machine.untraced.supply target word = (machine.supply target word).untraced := by
  cases pending : machine.pending with
  | none => simp [supply_eq, completed, advance, untraced, pending]
  | some entry => simp [supply_eq, completed, advance, untraced, pending]

theorem untraced_recordable (machine : Machine) (instruction : Instruction) :
    machine.untraced.Recordable instruction := by
  intro tracing
  exact absurd tracing (by simp [untraced])

theorem step_untraced (machine next : Machine) (outcome : Except Error Event)
    (legible : machine.Legible) (stepped : machine.step = (outcome, next)) :
    machine.untraced.step = (outcome, next.untraced) := by
  have sameFetch : machine.untraced.fetch = machine.fetch := fetch_congr _ _ rfl rfl rfl
  have sameEffect (instruction : Instruction) :
      machine.untraced.effect instruction = machine.effect instruction :=
    effect_congr _ _ _ rfl rfl
  apply steps_step
  cases step_steps machine next outcome stepped with
  | unfetched error fetched => exact .unfetched error (sameFetch.trans fetched)
  | unrecorded instruction fetched unrecordable =>
      exact absurd (legible.recordable instruction) unrecordable
  | faulted instruction fault fetched failed =>
      rw [note_untraced, ← untraced_note machine instruction]
      exact .faulted instruction fault (sameFetch.trans fetched)
        ((sameEffect instruction).trans failed) (untraced_recordable machine instruction)
  | executed instruction effect fetched done =>
      rw [← apply_untraced, note_untraced, ← untraced_note machine instruction]
      exact .executed instruction effect (sameFetch.trans fetched)
        ((sameEffect instruction).trans done) (untraced_recordable machine instruction)

end Machine

namespace Execution

def untraced (execution : Execution) : Execution :=
  { execution with
    options := { execution.options with trace := false }
    machine := execution.machine.untraced }

/-! ## Turns and pulls -/

theorem turn_untraced (execution next : Execution) (outcome : Option (Except Error (Option Int)))
    (legible : execution.Legible) (turned : execution.turn = (outcome, next)) :
    execution.untraced.turn = (outcome, next.untraced) := by
  have same (report : Except Error Event) (machine : Machine)
      (step : execution.machine.step = (report, machine)) :
      execution.untraced.machine.step = (report, machine.untraced) :=
    Machine.step_untraced _ machine report legible.machine step
  apply turns_turn
  cases turn_turns execution next outcome turned with
  | trapped trap machine step => exact .trapped trap _ (same _ machine step)
  | failed error machine step untrapped => exact .failed error _ (same _ machine step) untrapped
  | continued machine step => exact .continued _ (same _ machine step)
  | output word machine step => exact .output word _ (same _ machine step)
  | halted machine step => exact .halted _ (same _ machine step)
  | starved target machine step empty => exact .starved target _ (same _ machine step) empty
  | fed target machine word queue step queued =>
      have fed := Turns.fed target _ word queue (same _ machine step) queued
      rw [Machine.supply_untraced] at fed
      exact fed

theorem untraced_unnoticed : Unnoticed Legible untraced where
  kept := legible_kept.turn
  turn := turn_untraced
  fault := fun _ => rfl
  halted := fun _ => rfl

theorem drain_untraced (fuel : Nat) (execution : Execution) (legible : execution.Legible) :
    execution.untraced.drain fuel =
      ((execution.drain fuel).1, (execution.drain fuel).2.untraced) := by
  unfold drain
  rw [untraced_unnoticed.collect fuel execution #[] legible]
  generalize execution.collect fuel #[] = result
  obtain ⟨outputs, stop?, next⟩ := result
  cases stop? with
  | some stop => rfl
  | none =>
      have sameCheck : (next.untraced.options.refuseLeftovers && !next.untraced.queue.isEmpty) =
          (next.options.refuseLeftovers && !next.queue.isEmpty) := rfl
      dsimp only
      rw [sameCheck]
      split <;> rfl

/-! ## Sessions -/

theorem serve_untraced (execution : Execution) (request : Request) (legible : execution.Legible)
    (elsewhere : request.onTrace = false) :
    execution.untraced.serve request =
      ((execution.serve request).1, (execution.serve request).2.untraced) := by
  cases request with
  | push value =>
      by_cases fits : Word.Fits value
      · simp only [serve, push, if_pos fits]
        rfl
      · simp only [serve, push, if_neg fits]
  | extend values =>
      simp only [serve, pushAll]
      cases acceptInputs values <;> rfl
  | pull fuel => simp only [serve, untraced_unnoticed.pull fuel execution legible]
  | drain fuel => simp only [serve, drain_untraced fuel execution legible]
  | reset => rfl
  | setTracing tracing => exact absurd elsewhere (by simp [Request.onTrace])
  | forgetTrace => exact absurd elsewhere (by simp [Request.onTrace])

theorem serve_on_trace (execution : Execution) (request : Request)
    (about : request.onTrace = true) :
    (execution.serve request).2.untraced = execution.untraced := by
  cases request with
  | setTracing tracing => rfl
  | forgetTrace => rfl
  | _ => exact absurd about (by simp [Request.onTrace])

theorem session_untraced (execution : Execution) (requests : List Request)
    (legible : execution.Legible) :
    execution.untraced.session (withoutTrace requests) =
      (answersWithoutTrace requests (execution.session requests).1,
        (execution.session requests).2.untraced) := by
  induction requests generalizing execution with
  | nil => rfl
  | cons request requests ih =>
      have later := ih (execution.serve request).2
        (serve_keeps legible_kept execution request legible)
      unfold withoutTrace answersWithoutTrace at later ⊢
      cases about : request.onTrace with
      | true =>
          rw [serve_on_trace execution request about] at later
          simp [session, about, later]
      | false => simp [session, about, serve_untraced execution request legible about, later]

/-- Tracing has no influence on an execution, whatever the image, so long as its words can be
written, as those of 64 bits can. Whenever a session switches the trace on or off or forgets it, its
other answers are those that an execution without a trace gives to the other requests alone, and the
two come to the same memory, registers and queue and have halted or faulted alike. -/
theorem tracing_is_invisible (image inputs : List Int) (options : Options) (traced : Execution)
    (writable : ∀ word ∈ image, Text.Writable word)
    (started : start image inputs options = .ok traced) (requests : List Request) :
    ∃ plain, start image inputs { options with trace := false } = .ok plain ∧
      let watched := (traced.session requests).2
      let unwatched := (plain.session (withoutTrace requests)).2
      answersWithoutTrace requests (traced.session requests).1 =
          (plain.session (withoutTrace requests)).1 ∧
        watched.machine.memory = unwatched.machine.memory ∧
        watched.machine.registers = unwatched.machine.registers ∧
        watched.queue = unwatched.queue ∧
        watched.halted = unwatched.halted ∧
        watched.fault = unwatched.fault := by
  obtain ⟨booted, fits⟩ := start_ok image inputs options traced started
  refine ⟨boot image inputs { options with trace := false },
    start_of_fits image inputs _ fits, ?_⟩
  have erased : boot image inputs { options with trace := false } = traced.untraced := by
    rw [booted]
    rfl
  have legible : traced.Legible := booted ▸ boot_legible image inputs options writable fits
  rw [erased, session_untraced traced requests legible]
  exact ⟨rfl, rfl, rfl, rfl, rfl, rfl⟩

/-- The trace is switched off while the entry of an input instruction waits in the machine, and on
again after the output. The entry is noted in between, when the instruction gets its word. -/
theorem echo_is_the_same_untraced :
    let traced := boot [3, 5, 4, 5, 99, 0] [] { trace := true }
    let requests : List Request :=
      [.pull 9, .setTracing false, .push 7, .pull 9, .setTracing true, .drain 9]
    (traced.session requests).2.machine.trace.size = 2 ∧
      answersWithoutTrace requests (traced.session requests).1 =
        ((boot [3, 5, 4, 5, 99, 0] [] {}).session [.pull 9, .push 7, .pull 9, .drain 9]).1 := by
  intro traced requests
  obtain ⟨plain, started, answers, _⟩ :=
    tracing_is_invisible [3, 5, 4, 5, 99, 0] [] { trace := true } traced (by decide) rfl requests
  cases started
  exact ⟨by decide, answers⟩

end Execution

end Intcode
