import Intcode.Proofs.ChainHistory
import Intcode.Proofs.RunEndings

/-!
# The end of a chain

The fuel of a chain bounds every pull and the number of pulls in the feedback. If a chain ends
before it is used up, then it ends in the same way with any more of it, for each of its three parts
does. So a chain comes to one end, or to none with any fuel.
-/

set_option autoImplicit false

namespace Intcode.Chain

/-! ## More fuel -/

/-- Whether a stop is for want of fuel does not depend on what it keeps from being given. -/
theorem fuel_left {Value Other : Type} {stop : Stop}
    (ended : (Except.error stop : Except Stop Value) ≠ .error .outOfFuel) :
    (Except.error stop : Except Stop Other) ≠ .error .outOfFuel := by
  intro stopped
  exact ended (congrArg Except.error (Except.error.inj stopped))

section Fuel

variable {fuel more : Nat} (enough : fuel ≤ more)

include enough

/-- With more fuel a pull ends as before, unless it ran out of fuel. -/
theorem pull_at_more (index : Nat) (amplifier : Execution) (state : State) :
    (∃ next after, pullAt fuel index amplifier state = (.error .outOfFuel, next, after)) ∨
      pullAt more index amplifier state = pullAt fuel index amplifier state := by
  by_cases stopped : (amplifier.pull fuel).1 = .error .outOfFuel
  · left
    have pulled : amplifier.pull fuel = (.error .outOfFuel, (amplifier.pull fuel).2) :=
      Prod.ext stopped rfl
    unfold pullAt Execution.pullNoting
    rw [pulled]
    exact ⟨_, _, rfl⟩
  · right
    have same : amplifier.pull more = amplifier.pull fuel :=
      Execution.pull_mono fuel more amplifier _ _ rfl stopped enough
    unfold pullAt Execution.pullNoting
    rw [same]

theorem start_all_more (program : Program) (index : Nat) (phases : List Int) (state : State)
    (ended : (startAll fuel program index phases state).1 ≠ .error .outOfFuel) :
    startAll more program index phases state = startAll fuel program index phases state := by
  induction phases generalizing index state with
  | nil => rfl
  | cons phase phases ih =>
      unfold startAll at ended ⊢
      cases loaded : (program.loadInputs [phase, state.signal]).bind (·.start {}) with
      | error error => rfl
      | ok amplifier =>
          simp only [loaded] at ended ⊢
          rcases pull_at_more enough index amplifier state with ⟨next, after, stopped⟩ | same
          · rw [stopped] at ended
            exact absurd rfl ended
          · rw [same]
            generalize pullAt fuel index amplifier state = pulled at ended ⊢
            obtain ⟨outcome, next, after⟩ := pulled
            cases outcome with
            | error stop => rfl
            | ok word =>
                cases word with
                | none => rfl
                | some word => exact ih _ _ ended

theorem circulate_more {pulls morePulls : Nat} (enoughPulls : pulls ≤ morePulls) (index : Nat)
    (state : State) (ended : (circulate fuel pulls index state).1 ≠ .error .outOfFuel) :
    circulate more morePulls index state = circulate fuel pulls index state := by
  induction pulls generalizing morePulls index state with
  | zero => exact absurd rfl ended
  | succ pulls ih =>
      obtain ⟨morePulls, rfl⟩ : ∃ rest, morePulls = rest + 1 := ⟨morePulls - 1, by omega⟩
      unfold circulate at ended ⊢
      cases present : state.amplifiers[index]? with
      | none => rfl
      | some amplifier =>
          simp only [present] at ended ⊢
          cases pushed : amplifier.push state.signal with
          | error error => rfl
          | ok fed =>
              simp only [pushed] at ended ⊢
              rcases pull_at_more enough index fed state with ⟨next, after, stopped⟩ | same
              · rw [stopped] at ended
                exact absurd rfl ended
              · rw [same]
                generalize pullAt fuel index fed state = pulled at ended ⊢
                obtain ⟨outcome, next, after⟩ := pulled
                cases outcome with
                | error stop => rfl
                | ok word =>
                    cases word with
                    | none => rfl
                    | some word => exact ih (by omega) _ _ ended

theorem settle_more (index : Nat) (amplifiers : List Execution) (state : State)
    (ended : (settle fuel index amplifiers state).1 ≠ .error .outOfFuel) :
    settle more index amplifiers state = settle fuel index amplifiers state := by
  induction amplifiers generalizing index state with
  | nil => rfl
  | cons amplifier amplifiers ih =>
      unfold settle at ended ⊢
      rcases pull_at_more enough index amplifier state with ⟨next, after, stopped⟩ | same
      · rw [stopped] at ended
        exact absurd rfl ended
      · rw [same]
        split at ended
        · rfl
        · rfl
        · rfl
        · exact ih _ _ ended

theorem feedback_more (feedback : Bool) (state : State) :
    let passed := if feedback then circulate fuel fuel 0 state else (.ok (), state)
    passed.1 ≠ .error .outOfFuel →
      (if feedback then circulate more more 0 state else (.ok (), state)) = passed := by
  intro passed ended
  cases feedback with
  | false => rfl
  | true => exact circulate_more enough enough 0 state ended

/-- The parts of a chain follow one another, and a part that is left has ended. -/
theorem run_more (program : Program) (phases : List Int) (signal : Int) (feedback : Bool)
    (ended : (run fuel program phases signal feedback).result ≠ .error .outOfFuel) :
    run more program phases signal feedback = run fuel program phases signal feedback := by
  unfold run at ended ⊢
  have starting := start_all_more enough program 0 phases ⟨#[], signal, #[]⟩
  generalize startAll fuel program 0 phases ⟨#[], signal, #[]⟩ = begun at ended starting ⊢
  obtain ⟨begun, started⟩ := begun
  cases begun with
  | error stop => rw [starting (fuel_left ended)]
  | ok _ =>
      rw [starting (by simp)]
      dsimp only at ended ⊢
      have passing := feedback_more enough feedback started
      generalize (if feedback then circulate fuel fuel 0 started else (.ok (), started)) = passed
        at ended passing ⊢
      obtain ⟨passed, final⟩ := passed
      cases passed with
      | error stop => rw [passing (fuel_left ended)]
      | ok _ =>
          rw [passing (by simp)]
          dsimp only at ended ⊢
          have settling := settle_more enough 0 final.amplifiers.toList final
          generalize settle fuel 0 final.amplifiers.toList final = settled at ended settling ⊢
          obtain ⟨settled, last⟩ := settled
          cases settled with
          | error stop => rw [settling (fuel_left ended)]
          | ok _ => rw [settling (by simp)]

end Fuel

/-! ## The end -/

/-- A chain that starts with signal zero comes to this end. -/
def Gives (program : Program) (feedback : Bool) (phases : List Int) (outcome : Except Error Int) :
    Prop :=
  ∃ fuel, (run fuel program phases 0 feedback).result = outcome.mapError .failed

section Ends

variable {program : Program} {feedback : Bool} {phases : List Int} {outcome : Except Error Int}

theorem Gives.with_more (gives : Gives program feedback phases outcome) :
    ∃ enough, ∀ fuel, enough ≤ fuel →
      (run fuel program phases 0 feedback).result = outcome.mapError .failed := by
  obtain ⟨enough, given⟩ := gives
  refine ⟨enough, ?_⟩
  intro fuel bound
  rw [run_more bound program phases 0 feedback, given]
  rw [given]
  exact ended_in_time outcome

theorem Gives.unique {other : Except Error Int} (gives : Gives program feedback phases outcome)
    (again : Gives program feedback phases other) : outcome = other := by
  obtain ⟨enough, given⟩ := gives.with_more
  obtain ⟨enoughAgain, givenAgain⟩ := again.with_more
  have same := given (max enough enoughAgain) (by omega)
  rw [givenAgain (max enough enoughAgain) (by omega)] at same
  exact map_error_injective (fun _ _ => Stop.failed.inj) same.symm

/-- Chains that each come to an end do so with one and the same fuel. -/
theorem ends_together (listed : List (List Int))
    (ends : ∀ phases ∈ listed, ∃ outcome, Gives program feedback phases outcome) :
    ∃ enough, ∀ fuel, enough ≤ fuel → ∀ phases ∈ listed, ∀ outcome,
      Gives program feedback phases outcome →
        (run fuel program phases 0 feedback).result = outcome.mapError .failed := by
  induction listed with
  | nil => exact ⟨0, by simp⟩
  | cons first listed ih =>
      rw [List.forall_mem_cons] at ends
      obtain ⟨⟨firstOutcome, firstGives⟩, laterEnds⟩ := ends
      obtain ⟨enough, given⟩ := firstGives.with_more
      obtain ⟨enoughLater, givenLater⟩ := ih laterEnds
      refine ⟨max enough enoughLater, ?_⟩
      intro fuel bound
      rw [List.forall_mem_cons]
      constructor
      · intro outcome gives
        rw [← firstGives.unique gives]
        exact given fuel (by omega)
      · exact givenLater fuel (by omega)

end Ends

end Intcode.Chain
