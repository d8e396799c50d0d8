import Intcode.Chain
import Intcode.Proofs.CompleteRuns

/-!
# The history of a chain

What was output in a chain, by which amplifier, and where the feedback ended, all read off the
history of its pulls; and what the three parts of a chain's run (starting the amplifiers, passing
the signal round, checking that all have halted) did when they succeed.
-/

set_option autoImplicit false

namespace Intcode.Chain

/-- The word that a pull output. -/
def Event.word? : Event → Option Int
  | pulled _ (.ok (some word)) _ => some word
  | pulled _ _ _ | closed _ _ => none

def Event.amplifier : Event → Nat
  | pulled index _ _ | closed index _ => index

def Event.closer? : Event → Option Nat
  | closed index _ => some index
  | pulled _ _ _ => none

/-- All words output, in order. -/
def spoken (events : Array Event) : List Int := events.toList.filterMap Event.word?

/-- The words that one amplifier output, in order. -/
def spokenBy (events : Array Event) (index : Nat) : List Int :=
  spoken (events.filter fun event => event.amplifier = index)

/-- The amplifiers that ended the feedback. -/
def closers (events : Array Event) : List Nat := events.toList.filterMap Event.closer?

theorem spoken_push (events : Array Event) (event : Event) :
    spoken (events.push event) = spoken events ++ event.word?.toList := by
  cases word : event.word? <;> simp [spoken, word]

theorem spoken_by_push (events : Array Event) (event : Event) (index : Nat) :
    spokenBy (events.push event) index =
      spokenBy events index ++ if event.amplifier = index then event.word?.toList else [] := by
  by_cases own : event.amplifier = index
  · simp [spokenBy, Array.filter_push_of_pos, own, spoken_push]
  · simp [spokenBy, Array.filter_push_of_neg, own]

theorem spoken_by_output (events : Array Event) (speaker : Nat) (word : Int)
    (notices : List Notice) (index : Nat) :
    spokenBy (events.push (.pulled speaker (.ok (some word)) notices)) index =
      spokenBy events index ++ if index = speaker then [word] else [] := by
  rw [spoken_by_push]
  by_cases own : index = speaker
  · simp [Event.amplifier, Event.word?, own]
  · simp [Event.amplifier, own, Ne.symm own]

theorem closers_push (events : Array Event) (event : Event) :
    closers (events.push event) = closers events ++ event.closer?.toList := by
  cases closer : event.closer? <;> simp [closers, closer]

/-! ## Pulls -/

theorem pull_at_pulls (fuel index : Nat) (amplifier next : Execution) (state after : State)
    (outcome : Except Stop (Option Int))
    (pulled : pullAt fuel index amplifier state = (outcome, next, after)) :
    amplifier.pull fuel = (outcome, next) ∧
      ∃ notices, after =
        { state with events := state.events.push (.pulled index outcome notices) } := by
  unfold pullAt Execution.pullNoting at pulled
  dsimp only at pulled
  cases pulled
  exact ⟨rfl, _, rfl⟩

theorem pull_at_of_pull (fuel index : Nat) (amplifier next : Execution) (state : State)
    (outcome : Except Stop (Option Int)) (pulled : amplifier.pull fuel = (outcome, next)) :
    ∃ notices, pullAt fuel index amplifier state =
      (outcome, next,
        { state with events := state.events.push (.pulled index outcome notices) }) := by
  unfold pullAt Execution.pullNoting
  rw [pulled]
  exact ⟨_, rfl⟩

/-- The state after an amplifier has output a word. -/
def State.pass (state : State) (index : Nat) (amplifiers : Array Execution) (word : Int)
    (notices : List Notice) : State :=
  { amplifiers
    signal := word
    events := state.events.push (.pulled index (.ok (some word)) notices) }

/-- The state after an amplifier has halted in place of an output. -/
def State.close (state : State) (index : Nat) (amplifiers : Array Execution)
    (notices : List Notice) : State :=
  { amplifiers
    signal := state.signal
    events := (state.events.push (.pulled index (.ok none) notices)).push
      (.closed index state.signal) }

/-! ## The parts of a run -/

/-- What a chain makes of the first pull on an amplifier: the next signal, or an error. -/
def opening (index : Nat) (phase : Int) : Except Error (Option Int) → Except Error Int
  | .ok (some word) => .ok word
  | .ok none => .error (.amplifier index (.silent phase))
  | .error error => .error error

/-- What a chain makes of the pull that should find an amplifier halted. An extra output is reported
only if it can be written. -/
def settling (index : Nat) : Except Error (Option Int) → Except Error Unit
  | .ok none => .ok ()
  | .ok (some word) =>
      if Text.Writable word then .error (.amplifier index (.talking word))
      else .error .unwritable
  | .error (.starved _) => .error (.amplifier index .waiting)
  | .error error => .error error

theorem settling_error (index : Nat) (error : Error)
    (supplied : ∀ pointer, error ≠ .starved pointer) :
    settling index (.error error) = .error error := by
  cases error with
  | starved pointer => exact absurd rfl (supplied pointer)
  | _ => rfl

theorem settling_word (index : Nat) (word : Int) :
    settling index (.ok (some word)) = .error (Error.amplifier index (.talking word)).raised := by
  have legible : (Error.amplifier index (.talking word)).Legible ↔ Text.Writable word :=
    List.forall_mem_singleton
  unfold Error.raised
  dsimp only [settling]
  by_cases writable : Text.Writable word
  · rw [if_pos writable, if_pos (legible.mpr writable)]
  · rw [if_neg writable, if_neg fun shown => writable (legible.mp shown)]

/-- A phase that an amplifier was started with fits a word, so that it can be written. -/
theorem silent_raised (program : Program) (index : Nat) (phase signal : Int)
    (amplifier : Execution)
    (loaded : (program.loadInputs [phase, signal]).bind (·.start {}) = .ok amplifier) :
    (Error.amplifier index (.silent phase)).raised = .amplifier index (.silent phase) := by
  have fits := (program.start_plays [phase, signal] amplifier loaded).fits phase (by simp)
  have legible : (Error.amplifier index (.silent phase)).Legible :=
    List.forall_mem_singleton.mpr fits.writable
  exact if_pos legible

/-- Starting the amplifiers ends with the first one, or goes on with the word that it outputs. -/
theorem start_all_turn (fuel index : Nat) (program : Program) (phase : Int) (phases : List Int)
    (state final : State) (result : Except Stop Unit)
    (started : startAll fuel program index (phase :: phases) state = (result, final))
    (ended : result ≠ .error .outOfFuel) :
    (∃ outcome error, program.Opens [phase, state.signal] outcome ∧
        opening index phase outcome = .error error ∧ result = .error (.failed error)) ∨
      ∃ word next notices, program.Voices [phase, state.signal] word next ∧
        startAll fuel program (index + 1) phases
          (state.pass index (state.amplifiers.push next) word notices) = (result, final) := by
  unfold startAll at started
  split at started
  case h_1 error refusal =>
    cases started
    exact .inl ⟨.error error, error, .refused error refusal, rfl, rfl⟩
  case h_2 amplifier loaded =>
    split at started
    case h_1 stop next after pulled =>
      obtain ⟨pulls, _⟩ := pull_at_pulls _ _ _ _ _ _ _ pulled
      cases started
      cases stop with
      | outOfFuel => exact absurd rfl ended
      | failed error =>
          exact .inl ⟨.error error, error, .pulled amplifier next _ loaded ⟨fuel, pulls⟩, rfl, rfl⟩
    case h_2 next after pulled =>
      obtain ⟨pulls, _⟩ := pull_at_pulls _ _ _ _ _ _ _ pulled
      rw [silent_raised program index phase state.signal amplifier loaded] at started
      cases started
      exact .inl ⟨.ok none, _, .pulled amplifier next _ loaded ⟨fuel, pulls⟩, rfl, rfl⟩
    case h_3 word next after pulled =>
      obtain ⟨pulls, notices, rfl⟩ := pull_at_pulls _ _ _ _ _ _ _ pulled
      exact .inr ⟨word, next, notices, ⟨amplifier, loaded, fuel, pulls⟩, started⟩

theorem start_all_cons (fuel index : Nat) (program : Program) (phase : Int) (phases : List Int)
    (state final : State)
    (started : startAll fuel program index (phase :: phases) state = (.ok (), final)) :
    ∃ amplifier next word notices,
      (program.loadInputs [phase, state.signal]).bind (·.start {}) = .ok amplifier ∧
      amplifier.Pulls (.ok (some word)) next ∧
      startAll fuel program (index + 1) phases
        (state.pass index (state.amplifiers.push next) word notices) = (.ok (), final) := by
  rcases start_all_turn _ _ _ _ _ _ _ _ started (by simp) with
    ⟨_, _, _, _, failed⟩ | ⟨word, next, notices, ⟨amplifier, loaded, pulls⟩, rest⟩
  · exact absurd failed (by simp)
  · exact ⟨amplifier, next, word, notices, loaded, pulls, rest⟩

theorem circulate_step (fuel pulls index : Nat) (state final : State) (amplifier : Execution)
    (present : state.amplifiers[index]? = some amplifier)
    (circulated : circulate fuel (pulls + 1) index state = (.ok (), final)) :
    Word.Fits state.signal ∧
      ((∃ next word notices, (amplifier.feed [state.signal]).Pulls (.ok (some word)) next ∧
          circulate fuel pulls ((index + 1) % state.amplifiers.size)
            (state.pass index (state.amplifiers.setIfInBounds index next) word notices) =
              (.ok (), final)) ∨
        ∃ next notices, (amplifier.feed [state.signal]).Pulls (.ok none) next ∧
          final = state.close index (state.amplifiers.setIfInBounds index next) notices) := by
  unfold circulate at circulated
  simp only [present, Execution.push] at circulated
  by_cases fits : Word.Fits state.signal
  · rw [if_pos fits] at circulated
    refine ⟨fits, ?_⟩
    dsimp only at circulated
    split at circulated
    · exact absurd circulated (by simp)
    case h_2 next after pulled =>
      obtain ⟨pulls, notices, rfl⟩ := pull_at_pulls _ _ _ _ _ _ _ pulled
      cases circulated
      exact .inr ⟨next, notices, ⟨fuel, pulls⟩, rfl⟩
    case h_3 word next after pulled =>
      obtain ⟨pulls, notices, rfl⟩ := pull_at_pulls _ _ _ _ _ _ _ pulled
      exact .inl ⟨next, word, notices, ⟨fuel, pulls⟩, circulated⟩
  · rw [if_neg fits] at circulated
    exact absurd circulated (by simp)

theorem ended_in_time (outcome : Except Error Int) :
    outcome.mapError Stop.failed ≠ .error .outOfFuel := by
  intro same
  cases outcome with
  | ok value => cases same
  | error error => cases same

/-- Checking that the amplifiers have halted ends with the first one, or finds it halted. -/
theorem settle_turn (fuel index : Nat) (amplifier : Execution) (amplifiers : List Execution)
    (state final : State) (result : Except Stop Unit)
    (settled : settle fuel index (amplifier :: amplifiers) state = (result, final))
    (ended : result ≠ .error .outOfFuel) :
    (∃ outcome error last, amplifier.Pulls outcome last ∧
        settling index outcome = .error error ∧ result = .error (.failed error)) ∨
      ∃ last notices, amplifier.Pulls (.ok none) last ∧
        settle fuel (index + 1) amplifiers
          { state with events := state.events.push (.pulled index (.ok none) notices) } =
            (result, final) := by
  unfold settle at settled
  split at settled
  case h_1 pointer last after pulled =>
    obtain ⟨pulls, _⟩ := pull_at_pulls _ _ _ _ _ _ _ pulled
    cases settled
    exact .inl ⟨.error (.starved pointer), _, last, ⟨fuel, pulls⟩, rfl, rfl⟩
  case h_2 stop last after supplied pulled =>
    obtain ⟨pulls, _⟩ := pull_at_pulls _ _ _ _ _ _ _ pulled
    cases settled
    cases stop with
    | outOfFuel => exact absurd rfl ended
    | failed error =>
        refine .inl ⟨.error error, error, last, ⟨fuel, pulls⟩, settling_error index error ?_, rfl⟩
        rintro pointer rfl
        exact supplied pointer rfl
  case h_3 word last after pulled =>
    obtain ⟨pulls, _⟩ := pull_at_pulls _ _ _ _ _ _ _ pulled
    cases settled
    exact .inl ⟨.ok (some word), _, last, ⟨fuel, pulls⟩, settling_word index word, rfl⟩
  case h_4 last after pulled =>
    obtain ⟨pulls, notices, rfl⟩ := pull_at_pulls _ _ _ _ _ _ _ pulled
    exact .inr ⟨last, notices, ⟨fuel, pulls⟩, settled⟩

/-- Checking that the amplifiers have halted finds them halted and changes nothing that is read off
the history. -/
theorem settle_halts (fuel index : Nat) (amplifiers : List Execution) (state final : State)
    (settled : settle fuel index amplifiers state = (.ok (), final)) :
    (∀ amplifier ∈ amplifiers, ∃ next, amplifier.Pulls (.ok none) next) ∧
      spoken final.events = spoken state.events ∧
      spokenBy final.events = spokenBy state.events ∧
      closers final.events = closers state.events := by
  induction amplifiers generalizing index state with
  | nil =>
      cases settled
      exact ⟨by simp, rfl, rfl, rfl⟩
  | cons amplifier amplifiers ih =>
      rcases settle_turn _ _ _ _ _ _ _ settled (by simp) with
        ⟨_, _, _, _, _, failed⟩ | ⟨next, notices, pulls, rest⟩
      · exact absurd failed (by simp)
      · obtain ⟨halted, sameSpoken, sameSpokenBy, sameClosers⟩ := ih _ _ rest
        refine ⟨?_, ?_, ?_, ?_⟩
        · intro other member
          rcases List.mem_cons.mp member with rfl | later
          · exact ⟨next, pulls⟩
          · exact halted other later
        · rw [sameSpoken, spoken_push]
          simp [Event.word?]
        · funext other
          rw [sameSpokenBy, spoken_by_push]
          simp [Event.word?]
        · rw [sameClosers, closers_push]
          simp [Event.closer?]

theorem run_feedback (fuel : Nat) (program : Program) (phases : List Int) (signal value : Int)
    (returned : (run fuel program phases signal true).result = .ok value) :
    ∃ started final settled,
      startAll fuel program 0 phases { amplifiers := #[], signal, events := #[] } =
        (.ok (), started) ∧
      circulate fuel fuel 0 started = (.ok (), final) ∧
      settle fuel 0 final.amplifiers.toList final = (.ok (), settled) ∧
      final.signal = value ∧
      (run fuel program phases signal true).events = settled.events := by
  unfold run at returned ⊢
  split at returned
  · exact absurd returned (by simp)
  case h_2 started starting =>
    simp only [if_true] at returned ⊢
    split at returned
    · exact absurd returned (by simp)
    case h_2 final circulating =>
      split at returned
      · exact absurd returned (by simp)
      case h_2 settled settling =>
        exact ⟨started, final, settled, starting, circulating, settling, Except.ok.inj returned,
          rfl⟩

end Intcode.Chain
