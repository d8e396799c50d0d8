import Mathlib.Data.List.DropRight
import Mathlib.Data.List.Induction
import Intcode.Proofs.LifeCycle

/-!
# The turns of a session

Pulls and drains make turns, and all else that a session does to a machine happens between them. The
history of a session lists the executions that its turns start from, so that what was handed over or
stored in the course of a session can be read off turn by turn. A reset starts the history anew:
what was requested before it leaves no trace.
-/

set_option autoImplicit false

namespace Intcode

/-- The requests that came after the last reset. -/
def sinceReset (requests : List Request) : List Request := requests.rtakeWhile (· ≠ .reset)

theorem reset_not_mem_since_reset (requests : List Request) : .reset ∉ sinceReset requests := by
  intro member
  have kept := List.mem_rtakeWhile_imp member
  simp at kept

namespace Execution

/-! ## Handing words over -/

/-- The word that a turn takes from the queue to complete an input instruction, with the address
that it is stored at. -/
def handover? (execution : Execution) : Option (Nat × Int) :=
  match execution.machine.step.1, execution.queue with
  | .ok (.needsInput target), word :: _ => some (target, word)
  | _, _ => none

/-- The words that turns hand over, given the executions they start from. -/
def handedOver (turns : List Execution) : List Int :=
  turns.flatMap fun turn => (turn.handover?.map Prod.snd).toList

/-- A turn is a step of the machine, with the completion of the input instruction if there is a word
to hand over, and that word is what it takes from the queue. -/
theorem turn_handover (execution : Execution) :
    execution.turn.2.machine =
        (match execution.handover? with
        | none => execution.machine.step.2
        | some (target, word) => execution.machine.step.2.supply target word) ∧
      (execution.handover?.map Prod.snd).toList ++ execution.turn.2.queue = execution.queue := by
  unfold handover?
  generalize turned : execution.turn = result
  obtain ⟨outcome, next⟩ := result
  cases turn_turns execution next outcome turned with
  | trapped trap machine step => simp [step]
  | failed error machine step untrapped => simp [step]
  | continued machine step => simp [step]
  | output word machine step => simp [step]
  | halted machine step => simp [step]
  | starved target machine step empty => simp [step, empty]
  | fed target machine word queue step queued => simp [step, queued]

/-- A word is handed over just when the machine asks for one and the queue has one, and it is the
first of the queue. -/
theorem handover_iff (execution : Execution) (target : Nat) (word : Int) :
    execution.handover? = some (target, word) ↔
      execution.machine.step.1 = .ok (.needsInput target) ∧ execution.queue.head? = some word := by
  unfold handover?
  split
  case h_1 asked first later step queued => simp [step, queued]
  case h_2 unasked =>
    constructor
    · intro impossible
      exact absurd impossible (by simp)
    · rintro ⟨step, head⟩
      obtain ⟨later, queued⟩ := List.head?_eq_some_iff.mp head
      exact absurd queued (unasked target word later step)

/-- What a turn hands over reaches the machine. With a word for it, the input instruction that asks
is completed: the word is written at the address it asks for, and the pointer moves behind its two
words. Without one the turn is the machine's step alone. In either case the turn takes the word from
the queue that it hands over, and no other. -/
structure HandsOver (execution : Execution) : Prop where
  alone : execution.handover? = none → execution.turn.2.machine = execution.machine.step.2
  supplied : ∀ target word, execution.handover? = some (target, word) →
    execution.machine.step.1 = .ok (.needsInput target) ∧
      execution.turn.2.machine = execution.machine.step.2.supply target word ∧
      execution.turn.2.machine.memory = execution.machine.memory.set target word ∧
      execution.turn.2.machine.registers =
        { execution.machine.registers with
          ip := execution.machine.registers.ip + 2
          steps := execution.machine.registers.steps + 1 }
  taken : (execution.handover?.map Prod.snd).toList ++ execution.turn.2.queue = execution.queue

theorem turn_hands_over (execution : Execution) : execution.HandsOver := by
  obtain ⟨machine, queue⟩ := turn_handover execution
  refine ⟨?_, ?_, queue⟩
  · intro handed
    rw [machine, handed]
  · intro target word handed
    have asked := ((handover_iff execution target word).mp handed).1
    obtain ⟨instruction, _, _, _, noted⟩ :=
      Machine.request_waits execution.machine execution.machine.step.2 target (Prod.ext asked rfl)
    rw [handed] at machine
    refine ⟨asked, machine, ?_, ?_⟩
    · rw [machine, Machine.supply_memory, noted, Machine.note_memory]
    · rw [machine, Machine.supply_registers, noted]
      simp only [Machine.advance, Machine.note_registers]

/-! ## Histories -/

def advanceHistory : (fuel : Nat) → Execution → List Execution
  | 0, _ => []
  | fuel + 1, execution =>
      execution ::
        match execution.turn with
        | (none, next) => advanceHistory fuel next
        | (some _, _) => []

def pullHistory (fuel : Nat) (execution : Execution) : List Execution :=
  match execution.fault with
  | some _ => []
  | none => if execution.halted then [] else execution.advanceHistory fuel

def collectHistory : (fuel : Nat) → Execution → List Execution
  | 0, _ => []
  | fuel + 1, execution =>
      execution.pullHistory fuel ++
        match execution.pull fuel with
        | (.ok (some _), next) => collectHistory fuel next
        | (.ok none, _) | (.error _, _) => []

def serveHistory (execution : Execution) : Request → List Execution
  | .pull fuel => execution.pullHistory fuel
  | .drain fuel => execution.collectHistory fuel
  | .push _ | .extend _ | .setTracing _ | .forgetTrace | .reset => []

/-- The executions that the turns of a session start from, in order. -/
def history (execution : Execution) : List Request → List Execution
  | [] => []
  | request :: requests =>
      execution.serveHistory request ++ (execution.serve request).2.history requests

/-- Turns that lead from one execution to another. -/
inductive Path : Execution → List Execution → Execution → Prop
  | stay (execution : Execution) : Path execution [] execution
  | turn (execution last : Execution) (later : List Execution) (running : execution.Running)
      (rest : Path execution.turn.2 later last) : Path execution (execution :: later) last

theorem Path.append {first middle last : Execution} {earlier later : List Execution}
    (before : Path first earlier middle) (after : Path middle later last) :
    Path first (earlier ++ later) last := by
  induction before with
  | stay execution => exact after
  | turn execution middle earlier running rest ih => exact .turn execution last _ running (ih after)

theorem advance_path (fuel : Nat) (execution : Execution) (running : execution.Running) :
    Path execution (execution.advanceHistory fuel) (execution.advance fuel).2 := by
  induction fuel generalizing execution with
  | zero => exact .stay execution
  | succ fuel ih =>
      apply Path.turn _ _ _ running
      generalize turned : execution.turn = result
      obtain ⟨outcome, next⟩ := result
      simp only [advance, turned]
      cases outcome with
      | none => exact ih next (running.unended turned)
      | some ending => cases ending <;> exact .stay next

theorem pull_path (fuel : Nat) (execution : Execution) :
    Path execution (execution.pullHistory fuel) (execution.pull fuel).2 := by
  unfold pullHistory pull
  cases faulted : execution.fault with
  | some trap => exact .stay execution
  | none =>
      cases halted : execution.halted with
      | true => exact .stay execution
      | false => exact advance_path fuel execution ⟨faulted, halted⟩

theorem collect_path (fuel : Nat) (execution : Execution) (outputs : Array Int) :
    Path execution (execution.collectHistory fuel) (execution.collect fuel outputs).2.2 := by
  induction fuel generalizing execution outputs with
  | zero => exact .stay execution
  | succ fuel ih =>
      have first := pull_path fuel execution
      unfold collectHistory collect
      generalize execution.pull fuel = result at first
      obtain ⟨outcome, next⟩ := result
      apply first.append
      cases outcome with
      | error stop => exact .stay next
      | ok result =>
          cases result with
          | none => exact .stay next
          | some word => exact ih next (outputs.push word)

theorem drain_path (fuel : Nat) (execution : Execution) :
    Path execution (execution.collectHistory fuel) (execution.drain fuel).2 := by
  have path := collect_path fuel execution #[]
  unfold drain
  split
  case h_1 outputs stop after collected =>
    rw [collected] at path
    exact path
  case h_2 outputs after collected =>
    rw [collected] at path
    split <;> exact path

/-- A request makes its turns and then, a reset apart, changes the queue by its words and leaves
memory and registers alone. -/
theorem serve_path (execution : Execution) (request : Request) (unreset : request ≠ .reset) :
    ∃ last, Path execution (execution.serveHistory request) last ∧
      (execution.serve request).2.queue = last.queue ++ request.words ∧
      (execution.serve request).2.machine.memory = last.machine.memory ∧
      (execution.serve request).2.machine.registers = last.machine.registers := by
  cases request with
  | push value =>
      refine ⟨execution, .stay execution, ?_⟩
      rw [serve_push]
      exact ⟨rfl, rfl, rfl⟩
  | extend values =>
      refine ⟨execution, .stay execution, ?_⟩
      rw [serve_extend]
      exact ⟨rfl, rfl, rfl⟩
  | pull fuel => exact ⟨_, pull_path fuel execution, (List.append_nil _).symm, rfl, rfl⟩
  | drain fuel => exact ⟨_, drain_path fuel execution, (List.append_nil _).symm, rfl, rfl⟩
  | setTracing tracing =>
      exact ⟨execution, .stay execution, (List.append_nil _).symm, rfl, rfl⟩
  | forgetTrace => exact ⟨execution, .stay execution, (List.append_nil _).symm, rfl, rfl⟩
  | reset => exact absurd rfl unreset

/-! ## What holds at every turn -/

/-- What one more turn keeps of the turns so far and the present execution holds along a path. -/
theorem Path.invariant {Invariant : List Execution → Execution → Prop}
    {first last : Execution} {turns : List Execution} (path : Path first turns last)
    (turn : ∀ earlier execution, execution.Running → Invariant earlier execution →
      Invariant (earlier ++ [execution]) execution.turn.2)
    (earlier : List Execution) (initial : Invariant earlier first) :
    Invariant (earlier ++ turns) last := by
  induction path generalizing earlier with
  | stay execution =>
      rw [List.append_nil]
      exact initial
  | turn execution last later running rest ih =>
      have further := ih (earlier ++ [execution]) (turn earlier execution running initial)
      rw [List.append_assoc, List.singleton_append] at further
      exact further

theorem Path.keeps {Good : Execution → Prop} {first last : Execution} {turns : List Execution}
    (path : Path first turns last)
    (kept : ∀ execution, execution.Running → Good execution → Good execution.turn.2)
    (good : Good first) : ∀ turn ∈ turns, Good turn := by
  induction path with
  | stay execution => simp
  | turn execution last later running rest ih =>
      intro turn member
      rcases List.mem_cons.mp member with rfl | later
      · exact good
      · exact ih (kept execution running good) turn later

theorem history_keeps {Good : Execution → Prop} (kept : Kept Good) (execution : Execution)
    (requests : List Request) (unreset : .reset ∉ requests) (good : Good execution) :
    ∀ turn ∈ execution.history requests, Good turn := by
  induction requests generalizing execution with
  | nil => simp [history]
  | cons request requests ih =>
      rw [List.mem_cons, not_or] at unreset
      obtain ⟨last, path, _⟩ := serve_path execution request (Ne.symm unreset.1)
      intro turn member
      rcases List.mem_append.mp member with now | later
      · exact path.keeps kept.turn good turn now
      · exact ih _ unreset.2 (serve_keeps kept execution request good) turn later

/-! ## Since the last reset -/

theorem session_since_reset (fresh : Execution) (requests : List Request)
    (initial : fresh.reset = fresh) :
    (fresh.session requests).2 = (fresh.session (sinceReset requests)).2 := by
  induction requests using List.reverseRecOn with
  | nil => rfl
  | append_singleton requests request ih =>
      rw [session_append]
      by_cases reset : request = .reset
      · subst reset
        rw [sinceReset, List.rtakeWhile_concat_neg _ _ _ (by simp)]
        exact (session_reset fresh requests).trans initial
      · rw [sinceReset, List.rtakeWhile_concat_pos _ _ _ (by simpa using reset), session_append, ih]
        rfl

end Execution

end Intcode
