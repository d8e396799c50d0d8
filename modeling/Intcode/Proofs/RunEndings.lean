import Intcode.Proofs.CompleteRuns

/-!
# How runs end

A run pulls until a pull gives no word. It halts there, unless words are left that may not be, or
fails. `Runs` says this without a bound on the steps; a drain with enough fuel does the same, and so
does whatever else pulls word by word. Words that reach the queue only after a pull has starved make
no difference to a run from where that pull began.
-/

set_option autoImplicit false

namespace Intcode

theorem map_error_injective {Value Problem Other : Type} {change : Problem → Other}
    (injective : ∀ first second, change first = change second → first = second)
    {result other : Except Problem Value} (same : result.mapError change = other.mapError change) :
    result = other := by
  cases result with
  | error problem =>
      cases other with
      | error another => rw [injective problem another (Except.error.inj same)]
      | ok value => cases same
  | ok value =>
      cases other with
      | error another => cases same
      | ok second => rw [Except.ok.inj same]

namespace Execution

/-- What comes of a run whose last pull has ended so: after a halt, words left in the queue are an
error if the options ask for that. -/
def verdict (last : Execution) : Except Error Unit → Except Error Unit
  | .error error => .error error
  | .ok () =>
      if last.options.refuseLeftovers && !last.queue.isEmpty then
        .error (.unusedInputs last.queue.length)
      else .ok ()

theorem verdict_ok (last : Execution) (ending : Except Error Unit)
    (succeeds : last.verdict ending = .ok ()) : ending = .ok () := by
  cases ending with
  | error error => cases succeeds
  | ok halted => rfl

/-- Pulls output these words, one after the other, and the next one ends without a word, which gives
this result and leaves the last execution. -/
inductive Runs : Execution → List Int → Except Error Unit → Execution → Prop
  | ended (execution last : Execution) (outcome result : Except Error Unit)
      (pulls : execution.Pulls (outcome.map fun _ => none) last)
      (judged : result = last.verdict outcome) : Runs execution [] result last
  | word (execution next last : Execution) (word : Int) (words : List Int)
      (result : Except Error Unit) (pulls : execution.Pulls (.ok (some word)) next)
      (rest : Runs next words result last) : Runs execution (word :: words) result last

/-- Pulls give these words, and the next one ends so, without a word. -/
def Exhausts (execution : Execution) (words : List Int) (ending : Except Error Unit)
    (last : Execution) : Prop :=
  ∃ middle, execution.Speaks words middle ∧ middle.Pulls (ending.map fun _ => none) last

section Runs

variable {execution last : Execution} {words : List Int} {result : Except Error Unit}

/-- Runs are the words that pulls give up to the one that gives none, with the verdict on that. -/
theorem runs_iff : execution.Runs words result last ↔
    ∃ ending, execution.Exhausts words ending last ∧ result = last.verdict ending := by
  constructor
  · intro runs
    induction runs with
    | ended execution last outcome result pulls judged =>
        exact ⟨outcome, ⟨execution, .silent execution, pulls⟩, judged⟩
    | word execution next last word words result pulls rest ih =>
        obtain ⟨ending, ⟨middle, speaks, ends⟩, judged⟩ := ih
        exact ⟨ending, ⟨middle, .word execution next middle word words pulls speaks, ends⟩, judged⟩
  · rintro ⟨ending, ⟨middle, speaks, ends⟩, judged⟩
    induction speaks with
    | silent execution => exact .ended execution last ending result ends judged
    | word execution next middle word words pulls rest ih =>
        exact .word execution next last word words result pulls (ih ends)

/-- A run that succeeds has halted. -/
theorem Runs.halts (runs : execution.Runs words (.ok ()) last) :
    execution.Exhausts words (.ok ()) last := by
  obtain ⟨ending, exhausts, judged⟩ := runs_iff.mp runs
  rw [verdict_ok last ending judged.symm] at exhausts
  exact exhausts

/-- A run from where a pull gives a word gives this word first. -/
theorem Pulls.runs_iff {next : Execution} {word : Int}
    (pulls : execution.Pulls (.ok (some word)) next) :
    execution.Runs words result last ↔
      ∃ rest, words = word :: rest ∧ next.Runs rest result last := by
  constructor
  · intro runs
    cases runs with
    | ended _ _ outcome _ ends _ =>
        obtain ⟨same, _⟩ := pulls.unique ends
        cases outcome <;> cases same
    | word _ _ _ _ rest _ speaks runs =>
        obtain ⟨same, rfl⟩ := pulls.unique speaks
        cases same
        exact ⟨rest, rfl, runs⟩
  · rintro ⟨rest, rfl, runs⟩
    exact .word execution next last word rest result pulls runs

/-- An execution runs in one way. -/
theorem Runs.unique {other : Execution} {others : List Int} {another : Except Error Unit}
    (runs : execution.Runs words result last) (again : execution.Runs others another other) :
    words = others ∧ result = another ∧ last = other := by
  induction runs generalizing others with
  | ended execution last outcome result pulls judged =>
      cases again with
      | ended _ _ ending _ ends judgedAgain =>
          obtain ⟨same, rfl⟩ := pulls.unique ends
          have sameEnding : outcome = ending := by
            cases outcome <;> cases ending <;> simp_all [Except.map]
          rw [judged, judgedAgain, sameEnding]
          exact ⟨rfl, rfl, rfl⟩
      | word _ _ _ _ _ _ speaks _ =>
          obtain ⟨same, _⟩ := pulls.unique speaks
          cases outcome <;> cases same
  | word execution next last word words result pulls rest ih =>
      obtain ⟨later, rfl, restAgain⟩ := pulls.runs_iff.mp again
      obtain ⟨rfl, rfl, rfl⟩ := ih restAgain
      exact ⟨rfl, rfl, rfl⟩

/-! ## Drains -/

/-- Why pulls that have ended so go no further; a halt is no reason. -/
def stopOf : Except Error Unit → Option Stop
  | .ok () => none
  | .error error => some (.failed error)

theorem Runs.collect (runs : execution.Runs words result last) :
    ∃ outcome enough, result = last.verdict outcome ∧ ∀ fuel, enough ≤ fuel → ∀ outputs,
      execution.collect fuel outputs = (outputs ++ words.toArray, stopOf outcome, last) := by
  induction runs with
  | ended execution last outcome result pulls judged =>
      obtain ⟨enough, pulled⟩ := pulls.with_more
      refine ⟨outcome, enough + 1, judged, ?_⟩
      intro fuel bound outputs
      obtain ⟨fuel, rfl⟩ : ∃ rest, fuel = rest + 1 := ⟨fuel - 1, by omega⟩
      rw [Execution.collect, pulled fuel (by omega)]
      cases outcome <;> simp [inTime, Except.map, stopOf]
  | word execution next last word words result pulls rest ih =>
      obtain ⟨enough, pulled⟩ := pulls.with_more
      obtain ⟨outcome, enoughLater, judged, collected⟩ := ih
      refine ⟨outcome, max enough enoughLater + 1, judged, ?_⟩
      intro fuel bound outputs
      obtain ⟨fuel, rfl⟩ : ∃ rest, fuel = rest + 1 := ⟨fuel - 1, by omega⟩
      rw [Execution.collect, pulled fuel (by omega)]
      simp only [inTime, collected fuel (by omega)]
      simp

theorem collect_runs (fuel : Nat) (execution last : Execution) (outputs collected : Array Int)
    (stop? : Option Stop) (done : execution.collect fuel outputs = (collected, stop?, last))
    (ended : stop? ≠ some .outOfFuel) :
    ∃ words outcome, collected = outputs ++ words.toArray ∧ stop? = stopOf outcome ∧
      execution.Runs words (last.verdict outcome) last := by
  induction fuel generalizing execution outputs with
  | zero =>
      cases done
      exact absurd rfl ended
  | succ fuel ih =>
      unfold Execution.collect at done
      split at done
      case h_1 word next pulled =>
        obtain ⟨words, outcome, rfl, same, runs⟩ := ih next (outputs.push word) done
        refine ⟨word :: words, outcome, by simp, same, ?_⟩
        exact .word execution next last word words _ ⟨fuel, pulled⟩ runs
      case h_2 next pulled =>
        cases done
        exact ⟨[], .ok (), by simp, rfl, .ended execution last (.ok ()) _ ⟨fuel, pulled⟩ rfl⟩
      case h_3 stop next pulled =>
        cases done
        cases stop with
        | outOfFuel => exact absurd rfl ended
        | failed error =>
            exact ⟨[], .error error, by simp, rfl,
              .ended execution last (.error error) _ ⟨fuel, pulled⟩ rfl⟩

/-- The answer of a drain: the words of the run, if it succeeds. -/
def answer (words : List Int) (result : Except Error Unit) : Except Error (List Int) :=
  result.map fun _ => words

/-- What a drain answers after the pulls it made. -/
theorem drain_of_collect (fuel : Nat) (execution last : Execution) (words : List Int)
    (outcome : Except Error Unit)
    (collected : execution.collect fuel #[] = (words.toArray, stopOf outcome, last)) :
    execution.drain fuel = ((answer words (last.verdict outcome)).mapError .failed, last) := by
  unfold drain
  rw [collected]
  cases outcome with
  | error error => rfl
  | ok halted =>
      simp only [stopOf, verdict]
      split <;> rfl

theorem Runs.drain (runs : execution.Runs words result last) :
    ∃ enough, ∀ fuel, enough ≤ fuel →
      execution.drain fuel = ((answer words result).mapError .failed, last) := by
  obtain ⟨outcome, enough, judged, collected⟩ := runs.collect
  refine ⟨enough, ?_⟩
  intro fuel bound
  rw [judged]
  apply drain_of_collect
  rw [collected fuel bound]
  simp

/-- A drain in time has run, and output the words of that run whether it gives them or not. -/
theorem drain_emits (fuel : Nat) (execution : Execution)
    (ended : (execution.drain fuel).1 ≠ .error .outOfFuel) :
    ∃ result, execution.Runs (execution.emitted (.drain fuel)) result (execution.drain fuel).2 ∧
      (execution.drain fuel).1 =
        (answer (execution.emitted (.drain fuel)) result).mapError .failed := by
  generalize collected : execution.collect fuel #[] = made
  obtain ⟨outputs, stop?, last⟩ := made
  have inTime : stop? ≠ some .outOfFuel := by
    rintro rfl
    simp [Execution.drain, collected] at ended
  obtain ⟨words, outcome, same, rfl, runs⟩ :=
    collect_runs fuel execution last #[] outputs stop? collected inTime
  rw [same, Array.empty_append] at collected
  rw [drain_of_collect fuel execution last words outcome collected]
  simp only [emitted, collected]
  exact ⟨_, runs, rfl⟩

theorem drain_runs (fuel : Nat) (execution : Execution)
    (ended : (execution.drain fuel).1 ≠ .error .outOfFuel) :
    ∃ words result, execution.Runs words result (execution.drain fuel).2 ∧
      (execution.drain fuel).1 = (answer words result).mapError .failed :=
  ⟨_, drain_emits fuel execution ended⟩

/-- Under any sufficient bound, a drain gives this answer and leaves this execution. -/
def Drains (execution : Execution) (given : Except Error (List Int)) (last : Execution) : Prop :=
  ∃ enough, ∀ fuel, enough ≤ fuel → execution.drain fuel = (given.mapError .failed, last)

/-- A drain that gives an answer has run. -/
theorem drain_answer_runs (fuel : Nat) (execution : Execution) (given : Except Error (List Int))
    (drained : (execution.drain fuel).1 = given.mapError .failed) :
    ∃ words result, execution.Runs words result (execution.drain fuel).2 ∧
      given = answer words result := by
  have ended : (execution.drain fuel).1 ≠ .error .outOfFuel := by
    rw [drained]
    intro cut
    cases given <;> cases cut
  obtain ⟨words, result, runs, same⟩ := drain_runs fuel execution ended
  rw [drained] at same
  exact ⟨words, result, runs, map_error_injective (fun _ _ same => Stop.failed.inj same) same⟩

theorem drains_iff {given : Except Error (List Int)} :
    execution.Drains given last ↔
      ∃ words result, execution.Runs words result last ∧ given = answer words result := by
  constructor
  · rintro ⟨enough, drained⟩
    have ended := drained enough (Nat.le_refl enough)
    have runs := drain_answer_runs enough execution given (congrArg Prod.fst ended)
    rw [ended] at runs
    exact runs
  · rintro ⟨words, result, runs, rfl⟩
    exact runs.drain

/-! ## Words that come late -/

/-- Where pulls end alike, runs do. -/
theorem Runs.of_pulls {other : Execution} (runs : execution.Runs words result last)
    (alike : ∀ outcome next, execution.Pulls outcome next → other.Pulls outcome next) :
    other.Runs words result last := by
  cases runs with
  | ended _ _ outcome _ pulls judged => exact .ended _ last outcome result (alike _ _ pulls) judged
  | word _ next _ word words _ pulls rest =>
      exact .word _ next last word words result (alike _ _ pulls) rest

/-- After a pull that starved, a run goes on as if the words that came then had been queued before
that pull. -/
theorem Runs.resumed {next : Execution} {fuel pointer : Nat} {late : List Int}
    (pulled : execution.pull fuel = (.error (.failed (.starved pointer)), next))
    (runs : (next.feed late).Runs words result last) :
    (execution.feed late).Runs words result last := by
  apply runs.of_pulls
  intro outcome after pulls
  obtain ⟨more, pulledAgain⟩ := pulls
  exact ⟨fuel + more, starved_pull fuel execution next pointer pulled late more _ after
    pulledAgain (pulled_in_time outcome)⟩

theorem Pulls.options {next : Execution} {outcome : Except Error (Option Int)}
    (pulls : execution.Pulls outcome next) : next.options = execution.options := by
  obtain ⟨fuel, pulled⟩ := pulls
  have labels := pull_labels fuel execution
  rw [pulled] at labels
  exact (congrArg Execution.options labels).symm

/-- A run reads no image and no preloaded words, and of the options only what the last pull left. -/
theorem Runs.relabel (runs : execution.Runs words result last) (origin : Execution)
    (sameOptions : origin.options = execution.options) :
    (execution.relabel origin).Runs words result (last.relabel origin) := by
  induction runs with
  | ended execution last outcome result pulls judged =>
      refine .ended _ _ outcome result (pulls.relabel origin) ?_
      have options : (last.relabel origin).options = last.options :=
        sameOptions.trans pulls.options.symm
      rw [judged]
      cases outcome with
      | error error => rfl
      | ok halted =>
          unfold verdict
          rw [options]
          rfl
  | word execution next last word words result pulls rest ih =>
      exact .word _ _ _ word words result (pulls.relabel origin)
        (ih (sameOptions.trans pulls.options.symm))

end Runs

end Execution

namespace Program

/-- Run to the end under any sufficient bound, the program gives this answer. -/
def Returns (program : Program) (options : Options) (answer : Except Error (List Int)) : Prop :=
  ∃ enough, ∀ fuel, enough ≤ fuel → program.run fuel options = answer.mapError .failed

theorem returns_iff (program : Program) (options : Options) (fresh : Execution)
    (started : program.start options = .ok fresh) (answer : Except Error (List Int)) :
    program.Returns options answer ↔
      ∃ words result last, fresh.Runs words result last ∧
        answer = Execution.answer words result := by
  have runs : ∀ fuel, program.run fuel options = (fresh.drain fuel).1 := by
    intro fuel
    rw [run, started]
  constructor
  · rintro ⟨fuel, returned⟩
    have drained := returned fuel (Nat.le_refl fuel)
    rw [runs] at drained
    obtain ⟨words, result, ranOn, same⟩ := Execution.drain_answer_runs fuel fresh answer drained
    exact ⟨words, result, _, ranOn, same⟩
  · rintro ⟨words, result, last, ranOn, rfl⟩
    obtain ⟨enough, drained⟩ := ranOn.drain
    refine ⟨enough, ?_⟩
    intro fuel bound
    rw [runs, drained fuel bound]

end Program

end Intcode
