import Intcode.Program
import Intcode.Proofs.Pulls

/-!
# Complete runs

Pulls that output one word after the other, and a pull that halts in the end, make up a complete run
of the program. Such a run may be put together piece by piece: words that reach the queue while it
is under way could as well have been there from the start.
-/

set_option autoImplicit false

namespace Intcode

namespace Execution

/-- Pulls from the first execution output these words and leave the last one. -/
inductive Speaks : Execution → List Int → Execution → Prop
  | silent (execution : Execution) : Speaks execution [] execution
  | word (execution next last : Execution) (word : Int) (words : List Int)
      (pulls : execution.Pulls (.ok (some word)) next) (rest : Speaks next words last) :
      Speaks execution (word :: words) last

theorem Pulls.feed {execution next : Execution} {result : Option Int}
    (pulls : execution.Pulls (.ok result) next) (words : List Int) :
    (execution.feed words).Pulls (.ok result) (next.feed words) := by
  obtain ⟨fuel, pulled⟩ := pulls
  refine ⟨fuel, pull_feed fuel execution next _ words pulled ?_⟩
  rintro ⟨pointer, starved⟩
  exact absurd starved (by simp [inTime])

theorem Pulls.relabel {execution next : Execution} {outcome : Except Error (Option Int)}
    (pulls : execution.Pulls outcome next) (origin : Execution) :
    (execution.relabel origin).Pulls outcome (next.relabel origin) := by
  obtain ⟨fuel, pulled⟩ := pulls
  refine ⟨fuel, ?_⟩
  rw [pull_relabel, pulled]

theorem Speaks.feed {execution last : Execution} {spoken : List Int}
    (speaks : execution.Speaks spoken last) (words : List Int) :
    (execution.feed words).Speaks spoken (last.feed words) := by
  induction speaks with
  | silent execution => exact .silent _
  | word execution next last word spoken pulls rest ih =>
      exact .word _ _ _ word spoken (pulls.feed words) ih

theorem Speaks.relabel {execution last : Execution} {spoken : List Int}
    (speaks : execution.Speaks spoken last) (origin : Execution) :
    (execution.relabel origin).Speaks spoken (last.relabel origin) := by
  induction speaks with
  | silent execution => exact .silent _
  | word execution next last word spoken pulls rest ih =>
      exact .word _ _ _ word spoken (pulls.relabel origin) ih

theorem Speaks.snoc {execution middle last : Execution} {spoken : List Int} {word : Int}
    (speaks : execution.Speaks spoken middle) (pulls : middle.Pulls (.ok (some word)) last) :
    execution.Speaks (spoken ++ [word]) last := by
  induction speaks with
  | silent execution => exact .word _ _ _ word [] pulls (.silent last)
  | word execution next middle first spoken before rest ih =>
      exact .word _ _ _ first _ before (ih pulls)

theorem Speaks.collect {execution middle last : Execution} {spoken : List Int}
    (speaks : execution.Speaks spoken middle) (halts : middle.Pulls (.ok none) last) :
    ∃ enough, ∀ fuel, enough ≤ fuel → ∀ outputs,
      execution.collect fuel outputs = (outputs ++ spoken.toArray, none, last) := by
  induction speaks with
  | silent execution =>
      obtain ⟨enough, pulled⟩ := halts.with_more
      refine ⟨enough + 1, ?_⟩
      intro fuel bound outputs
      obtain ⟨fuel, rfl⟩ : ∃ rest, fuel = rest + 1 := ⟨fuel - 1, by omega⟩
      rw [Execution.collect, pulled fuel (by omega)]
      simp [inTime]
  | word execution next middle word spoken pulls rest ih =>
      obtain ⟨enough, pulled⟩ := pulls.with_more
      obtain ⟨enoughLater, collected⟩ := ih halts
      refine ⟨max enough enoughLater + 1, ?_⟩
      intro fuel bound outputs
      obtain ⟨fuel, rfl⟩ : ∃ rest, fuel = rest + 1 := ⟨fuel - 1, by omega⟩
      rw [Execution.collect, pulled fuel (by omega)]
      simp only [inTime, collected fuel (by omega)]
      simp

theorem collect_speaks (fuel : Nat) (execution last : Execution) (outputs collected : Array Int)
    (halted : execution.collect fuel outputs = (collected, none, last)) :
    ∃ spoken middle, collected = outputs ++ spoken.toArray ∧ execution.Speaks spoken middle ∧
      middle.Pulls (.ok none) last := by
  induction fuel generalizing execution outputs with
  | zero => exact absurd halted (by simp [collect])
  | succ fuel ih =>
      unfold collect at halted
      split at halted
      case h_1 word next pulled =>
        obtain ⟨spoken, middle, rfl, speaks, halts⟩ := ih next (outputs.push word) halted
        refine ⟨word :: spoken, middle, by simp, ?_, halts⟩
        exact .word execution next middle word spoken ⟨fuel, pulled⟩ speaks
      case h_2 next pulled =>
        cases halted
        exact ⟨[], execution, by simp, .silent execution, fuel, pulled⟩
      case h_3 stop next pulled => exact absurd halted (by simp)

end Execution

namespace Program

/-- Run with these inputs, the program halts after exactly these outputs. It may leave inputs. -/
def Completes (program : Program) (inputs outputs : List Int) : Prop :=
  ∃ loaded enough, program.loadInputs inputs = .ok loaded ∧
    ∀ fuel, enough ≤ fuel → loaded.run fuel { refuseLeftovers := false } = .ok outputs

/-- An execution of the program that has so far had these inputs and output these words. -/
structure Plays (program : Program) (inputs outputs : List Int) (execution : Execution) :
    Prop where
  fits : ∀ word ∈ inputs, Word.Fits word
  speaks : (Execution.boot program.words inputs {}).Speaks outputs
    (execution.relabel (Execution.boot program.words inputs {}))

theorem load_inputs_of_fits (program : Program) (inputs : List Int)
    (fits : ∀ word ∈ inputs, Word.Fits word) :
    program.loadInputs inputs = .ok { program with inputs } := by
  rw [loadInputs, Execution.accept_inputs_of_fits inputs fits]
  rfl

theorem load_inputs_ok (program loaded : Program) (inputs : List Int)
    (loads : program.loadInputs inputs = .ok loaded) :
    loaded = { program with inputs } ∧ ∀ word ∈ inputs, Word.Fits word := by
  unfold loadInputs at loads
  cases accepted : acceptInputs inputs with
  | error error => simp [accepted, Except.map] at loads
  | ok words =>
      obtain ⟨rfl, fits⟩ := Execution.accept_inputs_ok inputs words accepted
      rw [accepted] at loads
      exact ⟨(Except.ok.inj loads).symm, fits⟩

/-- Started with its first inputs, an execution has output nothing. -/
theorem start_plays (program : Program) (inputs : List Int) (execution : Execution)
    (started : (program.loadInputs inputs).bind (·.start {}) = .ok execution) :
    program.Plays inputs [] execution := by
  cases loads : program.loadInputs inputs with
  | error error => simp [loads, Except.bind] at started
  | ok loaded =>
      obtain ⟨rfl, fits⟩ := load_inputs_ok program loaded inputs loads
      rw [loads] at started
      obtain ⟨rfl, _⟩ := Execution.start_ok program.words inputs {} execution started
      exact ⟨fits, .silent _⟩

section Playing

variable {program : Program} {inputs outputs : List Int} {execution next : Execution}

theorem Plays.feed (plays : program.Plays inputs outputs execution) (word : Int)
    (fits : Word.Fits word) :
    program.Plays (inputs ++ [word]) outputs (execution.feed [word]) := by
  constructor
  · intro input member
    rcases List.mem_append.mp member with early | late
    · exact plays.fits input early
    · rw [List.mem_singleton.mp late]
      exact fits
  · exact (plays.speaks.feed [word]).relabel (Execution.boot program.words (inputs ++ [word]) {})

theorem Plays.speak {word : Int} (plays : program.Plays inputs outputs execution)
    (pulls : execution.Pulls (.ok (some word)) next) :
    program.Plays inputs (outputs ++ [word]) next :=
  ⟨plays.fits, plays.speaks.snoc (pulls.relabel _)⟩

theorem Plays.halt (plays : program.Plays inputs outputs execution)
    (pulls : execution.Pulls (.ok none) next) : program.Completes inputs outputs := by
  let origin := Execution.boot program.words inputs { refuseLeftovers := false }
  have speaks : origin.Speaks outputs (execution.relabel origin) := plays.speaks.relabel origin
  obtain ⟨enough, collected⟩ := speaks.collect (pulls.relabel origin)
  refine ⟨_, enough, load_inputs_of_fits program inputs plays.fits, ?_⟩
  intro fuel bound
  have started : start { program with inputs } { refuseLeftovers := false } = .ok origin :=
    Execution.start_of_fits program.words inputs _ plays.fits
  have unchecked : (next.relabel origin).options.refuseLeftovers = false := rfl
  rw [run, started]
  simp [Execution.drain, collected fuel bound, unchecked]

end Playing

theorem Completes.speaks {program : Program} {inputs outputs : List Int}
    (completes : program.Completes inputs outputs) :
    (∀ word ∈ inputs, Word.Fits word) ∧
      ∃ middle last, (Execution.boot program.words inputs {}).Speaks outputs middle ∧
        middle.Pulls (.ok none) last := by
  obtain ⟨loaded, fuel, loads, runs⟩ := completes
  obtain ⟨rfl, fits⟩ := load_inputs_ok program loaded inputs loads
  refine ⟨fits, ?_⟩
  have started := Execution.start_of_fits program.words inputs { refuseLeftovers := false } fits
  have drained := runs fuel (by omega)
  simp only [run, start, started, Execution.drain] at drained
  split at drained
  · exact absurd drained (by simp)
  case h_2 collected last collecting =>
    obtain ⟨spoken, middle, same, speaks, halts⟩ :=
      Execution.collect_speaks fuel _ last #[] collected collecting
    split at drained
    · exact absurd drained (by simp)
    · have outputsSpoken : outputs = spoken := by
        simpa [same] using (Except.ok.inj drained).symm
      rw [outputsSpoken]
      -- No pull reads whether leftovers are refused, so the same words come from the other boot.
      let origin := Execution.boot program.words inputs {}
      exact ⟨middle.relabel origin, last.relabel origin, speaks.relabel origin,
        halts.relabel origin⟩

/-! ## Runs with one output -/

/-- Started with these inputs, the program outputs this word at the first pull, which leaves this
execution. -/
def Voices (program : Program) (inputs : List Int) (word : Int) (next : Execution) : Prop :=
  ∃ execution, (program.loadInputs inputs).bind (·.start {}) = .ok execution ∧
    execution.Pulls (.ok (some word)) next

theorem Voices.unique {program : Program} {inputs : List Int} {word other : Int}
    {next another : Execution} (voices : program.Voices inputs word next)
    (others : program.Voices inputs other another) : word = other ∧ next = another := by
  obtain ⟨execution, started, pulls⟩ := voices
  obtain ⟨same, startedAgain, pullsAgain⟩ := others
  rw [started] at startedAgain
  cases startedAgain
  obtain ⟨sameWord, sameNext⟩ := pulls.unique pullsAgain
  cases sameWord
  exact ⟨rfl, sameNext⟩

/-- The first pull on the program ends so, if it is started with these inputs. Inputs that are
refused end it before it begins. -/
inductive Opens (program : Program) (inputs : List Int) : Except Error (Option Int) → Prop
  | refused (error : Error)
      (refusal : (program.loadInputs inputs).bind (·.start {}) = .error error) :
      Opens program inputs (.error error)
  | pulled (execution next : Execution) (outcome : Except Error (Option Int))
      (started : (program.loadInputs inputs).bind (·.start {}) = .ok execution)
      (pulls : execution.Pulls outcome next) : Opens program inputs outcome

/-- The first pull on the program outputs a word, and the second one ends so. -/
def Resumes (program : Program) (inputs : List Int) (outcome : Except Error (Option Int)) : Prop :=
  ∃ word next last, program.Voices inputs word next ∧ next.Pulls outcome last

theorem opens_word_iff (program : Program) (inputs : List Int) (word : Int) :
    program.Opens inputs (.ok (some word)) ↔ ∃ next, program.Voices inputs word next := by
  constructor
  · intro opens
    cases opens with
    | pulled execution next _ started pulls => exact ⟨next, execution, started, pulls⟩
  · rintro ⟨next, execution, started, pulls⟩
    exact .pulled execution next _ started pulls

theorem Voices.resumes_iff {program : Program} {inputs : List Int} {word : Int}
    {next : Execution} (voices : program.Voices inputs word next)
    (outcome : Except Error (Option Int)) :
    program.Resumes inputs outcome ↔ ∃ last, next.Pulls outcome last := by
  constructor
  · rintro ⟨_, other, last, voicesAgain, pulls⟩
    rw [(voices.unique voicesAgain).2]
    exact ⟨last, pulls⟩
  · rintro ⟨last, pulls⟩
    exact ⟨word, next, last, voices, pulls⟩

/-- To run to completion with one output is to output it at the first pull and halt at the second.
Whether words left in the queue would be refused makes no difference to the pulls. -/
theorem completes_one_iff (program : Program) (inputs : List Int) (word : Int) :
    program.Completes inputs [word] ↔
      ∃ next last, program.Voices inputs word next ∧ next.Pulls (.ok none) last := by
  constructor
  · intro completes
    obtain ⟨fits, next, last, speaks, halts⟩ := completes.speaks
    refine ⟨next, last, ⟨Execution.boot program.words inputs {}, ?_, ?_⟩, halts⟩
    · rw [load_inputs_of_fits program inputs fits]
      exact Execution.start_of_fits program.words inputs {} fits
    · cases speaks with
      | word _ _ _ _ _ pulls rest =>
          cases rest
          exact pulls
  · rintro ⟨next, last, ⟨execution, started, pulls⟩, halts⟩
    exact ((start_plays program inputs execution started).speak pulls).halt halts

end Program

end Intcode
