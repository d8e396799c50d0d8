import Intcode.Proofs.Pulls
import Mathlib.Data.List.Induction

/-!
# Starvation leaves no mark

Words may reach the queue before a pull or only after it has starved, in one batch or in many, and a
starved pull may be tried again any number of times. Without the pulls that starved, the outcomes
are those of an execution that had all the words from the start, and after each of the others the
two executions agree.

The two are compared at the last pull that did not starve. `Follows` says what may have happened
since: words were queued, and some pulls starved, but the next outcome is still the one that the
execution of that time gives once it has the words.
-/

set_option autoImplicit false

namespace Intcode

/-- The requests that only queue words or pull outputs. -/
def Request.Plain : Request → Prop
  | .push _ | .extend _ | .pull _ => True
  | .drain _ | .setTracing _ | .forgetTrace | .reset => False

/-- The outcome of a pull that did not starve. -/
def Answer.settled : Answer → Option (Except Stop (Option Int))
  | .pulled (.error (.failed (.starved _))) => none
  | .pulled outcome => some outcome
  | .done | .refused _ | .drained _ => none

theorem Answer.settled_of_not_starved (outcome : Except Stop (Option Int))
    (supplied : ¬ Execution.Starved outcome) : (Answer.pulled outcome).settled = some outcome := by
  unfold settled
  split
  case h_1 pointer same =>
    cases same
    exact absurd ⟨pointer, rfl⟩ supplied
  case h_2 same =>
    cases same
    rfl
  all_goals contradiction

namespace Execution

/-- The settled outcomes of a session, in order. -/
def outcomes (execution : Execution) (requests : List Request) :
    List (Except Stop (Option Int)) :=
  (execution.session requests).1.filterMap Answer.settled

/-- Requests that queue words and pull outputs, in any order, each pull ending within its bound. -/
structure Schedule (execution : Execution) (requests : List Request) : Prop where
  plain : ∀ request ∈ requests, request.Plain
  ends : ∀ answer ∈ (execution.session requests).1, answer ≠ .pulled (.error .outOfFuel)

/-- Pulls with enough fuel, one after the other, have these outcomes and end there. -/
def PullsTo (execution : Execution) (outcomes : List (Except Stop (Option Int)))
    (last : Execution) : Prop :=
  ∃ enough, ∀ fuel, enough ≤ fuel →
    execution.session (List.replicate outcomes.length (.pull fuel)) =
      (outcomes.map .pulled, last)

/-- Pulls from `current`, with whatever words behind its queue, end as pulls from `base` do that
has `words` before them. -/
def Follows (base current : Execution) (words : List Int) : Prop :=
  ∀ more fuel outcome next, (current.feed more).pull fuel = (outcome, next) →
    outcome ≠ .error .outOfFuel → ∃ bound, (base.feed (words ++ more)).pull bound = (outcome, next)

/-! ## Outcomes in two parts -/

theorem outcomes_append (execution : Execution) (first second : List Request) :
    execution.outcomes (first ++ second) =
      execution.outcomes first ++ (execution.session first).2.outcomes second := by
  simp only [outcomes, session_append, List.filterMap_append]

theorem queueing_outcomes (execution : Execution) :
    (∀ value, execution.outcomes [.push value] = []) ∧
      ∀ values, execution.outcomes [.extend values] = [] := by
  constructor
  · intro value
    simp only [outcomes, session, serve]
    cases execution.push value <;> rfl
  · intro values
    simp only [outcomes, session, serve]
    cases execution.pushAll values <;> rfl

/-! ## Runs of pulls -/

theorem PullsTo.nil (execution : Execution) : execution.PullsTo [] execution :=
  ⟨0, fun _ _ => rfl⟩

theorem PullsTo.single (bound : Nat) (execution next : Execution)
    (outcome : Except Stop (Option Int)) (pulled : execution.pull bound = (outcome, next))
    (ended : outcome ≠ .error .outOfFuel) : execution.PullsTo [outcome] next := by
  refine ⟨bound, ?_⟩
  intro fuel enough
  have same := pull_mono bound fuel execution next outcome pulled ended enough
  simp only [List.length_singleton, List.replicate_one, session, serve, same, List.map_cons,
    List.map_nil]

theorem PullsTo.append {execution middle last : Execution}
    {first second : List (Except Stop (Option Int))} (before : execution.PullsTo first middle)
    (after : middle.PullsTo second last) : execution.PullsTo (first ++ second) last := by
  obtain ⟨enoughBefore, pullsBefore⟩ := before
  obtain ⟨enoughAfter, pullsAfter⟩ := after
  refine ⟨max enoughBefore enoughAfter, ?_⟩
  intro fuel enough
  rw [List.length_append, ← List.replicate_append_replicate, session_append,
    pullsBefore fuel (by omega)]
  simp only [pullsAfter fuel (by omega), List.map_append]

/-- Equally many pulls from one execution have one sequence of outcomes. -/
theorem PullsTo.unique {execution last other : Execution}
    {first second : List (Except Stop (Option Int))} (pulls : execution.PullsTo first last)
    (others : execution.PullsTo second other) (sameLength : first.length = second.length) :
    first = second ∧ last = other := by
  obtain ⟨enough, pulls⟩ := pulls
  obtain ⟨enoughOthers, others⟩ := others
  have left := pulls (max enough enoughOthers) (by omega)
  have right := others (max enough enoughOthers) (by omega)
  rw [sameLength, right, Prod.mk.injEq] at left
  refine ⟨?_, left.2.symm⟩
  refine (List.map_inj_right ?_).mp left.1.symm
  intro outcome another same
  exact Answer.pulled.inj same

/-! ## The preloaded words

They are read by a reset only. -/

def preload (execution : Execution) (words : List Int) : Execution :=
  { execution with preloaded := words }

theorem pull_preload (fuel : Nat) (execution : Execution) (words : List Int) :
    (execution.preload words).pull fuel =
      ((execution.pull fuel).1, (execution.pull fuel).2.preload words) := by
  have relabelled := pull_relabel fuel execution (execution.preload words)
  rw [← pull_labels fuel execution]
  exact relabelled

theorem PullsTo.preload {execution last : Execution}
    {outcomes : List (Except Stop (Option Int))} (pulls : execution.PullsTo outcomes last)
    (words : List Int) : (execution.preload words).PullsTo outcomes (last.preload words) := by
  obtain ⟨enough, pulls⟩ := pulls
  refine ⟨enough, ?_⟩
  intro fuel bound
  have relabelled : ∀ count (execution : Execution),
      (execution.preload words).session (List.replicate count (.pull fuel)) =
        ((execution.session (List.replicate count (.pull fuel))).1,
          (execution.session (List.replicate count (.pull fuel))).2.preload words) := by
    intro count
    induction count with
    | zero => exact fun _ => rfl
    | succ count ih =>
        intro execution
        simp only [List.replicate_succ, session, serve, pull_preload, ih]
  rw [relabelled, pulls fuel bound]

/-! ## What may have happened since the last settled pull -/

theorem Follows.refl (execution : Execution) : Follows execution execution [] := by
  intro more fuel outcome next pulled ended
  exact ⟨fuel, pulled⟩

theorem Follows.feed {base current : Execution} {words : List Int}
    (follows : Follows base current words) (queued : List Int) :
    Follows base (current.feed queued) (words ++ queued) := by
  intro more fuel outcome next pulled ended
  rw [feed_feed] at pulled
  rw [List.append_assoc]
  exact follows (queued ++ more) fuel outcome next pulled ended

theorem Follows.starved {base current next : Execution} {words : List Int} {bound pointer : Nat}
    (follows : Follows base current words)
    (pulled : current.pull bound = (.error (.failed (.starved pointer)), next)) :
    Follows base next words := by
  intro more fuel outcome last again ended
  have first := starved_pull bound current next pointer pulled more fuel outcome last again ended
  exact follows more (bound + fuel) outcome last first ended

theorem Follows.settled {base current next : Execution} {words : List Int} {bound : Nat}
    {outcome : Except Stop (Option Int)} (follows : Follows base current words)
    (pulled : current.pull bound = (outcome, next)) (supplied : ¬ Starved outcome)
    (ended : outcome ≠ .error .outOfFuel) (later : List Int) :
    (base.feed (words ++ later)).PullsTo [outcome] (next.feed later) := by
  have fed := pull_feed bound current next outcome later pulled supplied
  obtain ⟨enough, same⟩ := follows later bound outcome (next.feed later) fed ended
  exact PullsTo.single enough _ _ outcome same ended

/-- The invariant of a session: there was a last settled pull, the execution it left is where pulls
alone lead with all the words so far, and the present execution follows it. -/
def Tracks (fresh : Execution) (requests : List Request) (base : Execution) (words : List Int) :
    Prop :=
  Follows base (fresh.session requests).2 words ∧
    ∀ later, (fresh.feed (requests.flatMap Request.words ++ later)).PullsTo
      (fresh.outcomes requests) (base.feed (words ++ later))

section Tracking

variable {fresh base : Execution} {requests : List Request} {words : List Int}

theorem Tracks.queue (tracks : Tracks fresh requests base words) (request : Request)
    (silent : (fresh.session requests).2.outcomes [request] = [])
    (served : ((fresh.session requests).2.serve request).2 =
      (fresh.session requests).2.feed request.words) :
    Tracks fresh (requests ++ [request]) base (words ++ request.words) := by
  obtain ⟨follows, pulls⟩ := tracks
  constructor
  · have current : (fresh.session (requests ++ [request])).2 =
        (fresh.session requests).2.feed request.words := by
      rw [session_append, ← served]
      rfl
    rw [current]
    exact follows.feed request.words
  · intro later
    rw [outcomes_append, silent, List.append_nil, List.flatMap_append, List.append_assoc,
      List.append_assoc, List.flatMap_singleton]
    exact pulls (request.words ++ later)

theorem Tracks.starve (tracks : Tracks fresh requests base words) (bound pointer : Nat)
    (next : Execution) (pulled : (fresh.session requests).2.pull bound =
      (.error (.failed (.starved pointer)), next)) :
    Tracks fresh (requests ++ [.pull bound]) base words := by
  obtain ⟨follows, pulls⟩ := tracks
  constructor
  · simp only [session_append, session, serve, pulled]
    exact follows.starved pulled
  · intro later
    have silent : (fresh.session requests).2.outcomes [.pull bound] = [] := by
      simp only [outcomes, session, serve, pulled]
      rfl
    rw [outcomes_append, silent, List.append_nil, List.flatMap_append]
    simpa [Request.words] using pulls later

theorem Tracks.settle (tracks : Tracks fresh requests base words) (bound : Nat)
    (outcome : Except Stop (Option Int)) (next : Execution)
    (pulled : (fresh.session requests).2.pull bound = (outcome, next))
    (supplied : ¬ Starved outcome) (ended : outcome ≠ .error .outOfFuel) :
    Tracks fresh (requests ++ [.pull bound]) next [] := by
  obtain ⟨follows, pulls⟩ := tracks
  constructor
  · simp only [session_append, session, serve, pulled]
    exact Follows.refl next
  · intro later
    have spoken : (fresh.session requests).2.outcomes [.pull bound] = [outcome] := by
      simp only [outcomes, session, serve, pulled, List.filterMap_cons,
        Answer.settled_of_not_starved outcome supplied, List.filterMap_nil]
    have last := follows.settled pulled supplied ended later
    rw [outcomes_append, spoken, List.flatMap_append]
    simpa [Request.words] using (pulls later).append last

end Tracking

theorem Schedule.earlier {execution : Execution} {first second : List Request}
    (schedule : execution.Schedule (first ++ second)) : execution.Schedule first := by
  obtain ⟨plain, ends⟩ := schedule
  rw [session_append] at ends
  constructor
  · intro request member
    exact plain request (List.mem_append_left _ member)
  · intro answer member
    exact ends answer (List.mem_append_left _ member)

theorem Schedule.pull_ends {execution : Execution} {first second : List Request} {bound : Nat}
    (schedule : execution.Schedule (first ++ .pull bound :: second)) :
    ((execution.session first).2.pull bound).1 ≠ .error .outOfFuel := by
  intro unended
  refine schedule.ends (.pulled (.error .outOfFuel)) ?_ rfl
  rw [session_append, ← unended]
  simp [session, serve]

theorem schedule_tracks (fresh : Execution) (requests : List Request)
    (schedule : fresh.Schedule requests) : ∃ base words, Tracks fresh requests base words := by
  -- From the front the last settled pull would not be known yet, so the last request comes off.
  induction requests using List.reverseRecOn with
  | nil =>
      refine ⟨fresh, [], Follows.refl fresh, ?_⟩
      intro later
      exact PullsTo.nil _
  | append_singleton requests request ih =>
      obtain ⟨base, words, tracks⟩ := ih schedule.earlier
      have plain := schedule.plain request (by simp)
      cases request with
      | push value =>
          exact ⟨base, _, tracks.queue (.push value) ((queueing_outcomes _).1 value)
            (serve_push _ value)⟩
      | extend values =>
          exact ⟨base, _, tracks.queue (.extend values) ((queueing_outcomes _).2 values)
            (serve_extend _ values)⟩
      | pull bound =>
          have ended := schedule.pull_ends
          generalize pulled : (fresh.session requests).2.pull bound = result at ended
          obtain ⟨outcome, next⟩ := result
          by_cases starved : Starved outcome
          · obtain ⟨pointer, rfl⟩ := starved
            exact ⟨base, words, tracks.starve bound pointer next pulled⟩
          · exact ⟨next, [], tracks.settle bound outcome next pulled starved ended⟩
      | drain fuel => exact absurd plain id
      | setTracing tracing => exact absurd plain id
      | forgetTrace => exact absurd plain id
      | reset => exact absurd plain id

/-- A fresh execution with all the words preloaded makes the settled pulls of the schedule. -/
theorem preloaded_pulls (image inputs : List Int) (options : Options) (requests : List Request)
    (base : Execution) (words later : List Int)
    (tracks : Tracks (boot image inputs options) requests base words) :
    (boot image (inputs ++ (requests.flatMap Request.words ++ later)) options).PullsTo
      ((boot image inputs options).outcomes requests)
      ((base.feed (words ++ later)).preload
        (inputs ++ (requests.flatMap Request.words ++ later))) := by
  have same : boot image (inputs ++ (requests.flatMap Request.words ++ later)) options =
      ((boot image inputs options).feed (requests.flatMap Request.words ++ later)).preload
        (inputs ++ (requests.flatMap Request.words ++ later)) := rfl
  rw [same]
  exact (tracks.2 later).preload _

/-- Input starvation is transparent. The settled outcomes of a schedule are those of equally many
pulls from an execution that is started with all the words that the schedule queues. After each
settled pull, so after the last one, the two executions have the same machine, and their queues
differ by the words that the schedule queues later. No other schedule of these words gives other
outcomes. -/
theorem starvation_is_transparent (image inputs : List Int) (options : Options)
    (fresh : Execution) (started : start image inputs options = .ok fresh)
    (requests : List Request) (schedule : fresh.Schedule requests) :
    ∃ reference,
      start image (inputs ++ requests.flatMap Request.words) options = .ok reference ∧
      (∃ last, reference.PullsTo (fresh.outcomes requests) last) ∧
      (∀ earlier bound later, requests = earlier ++ .pull bound :: later →
        ¬ Starved ((fresh.session earlier).2.pull bound).1 →
          ∃ last, reference.PullsTo (fresh.outcomes (earlier ++ [.pull bound])) last ∧
            last.machine = ((fresh.session earlier).2.pull bound).2.machine ∧
            last.queue = ((fresh.session earlier).2.pull bound).2.queue ++
              later.flatMap Request.words ∧
            last.halted = ((fresh.session earlier).2.pull bound).2.halted ∧
            last.fault = ((fresh.session earlier).2.pull bound).2.fault) ∧
      ∀ other, fresh.Schedule other →
        other.flatMap Request.words = requests.flatMap Request.words →
        (fresh.outcomes other).length = (fresh.outcomes requests).length →
          fresh.outcomes other = fresh.outcomes requests := by
  obtain ⟨rfl, fits⟩ := start_ok image inputs options fresh started
  have allFit : ∀ word ∈ inputs ++ requests.flatMap Request.words, Word.Fits word := by
    intro word member
    rcases List.mem_append.mp member with early | late
    · exact fits word early
    · obtain ⟨request, _, queued⟩ := List.mem_flatMap.mp late
      exact request.words_fit word queued
  have pulls : ∀ requests, (boot image inputs options).Schedule requests →
      ∃ last, (boot image (inputs ++ requests.flatMap Request.words) options).PullsTo
        ((boot image inputs options).outcomes requests) last := by
    intro requests schedule
    obtain ⟨base, words, tracks⟩ := schedule_tracks _ requests schedule
    have reference := preloaded_pulls image inputs options requests base words [] tracks
    rw [List.append_nil] at reference
    exact ⟨_, reference⟩
  refine ⟨_, start_of_fits image _ options allFit, pulls requests schedule, ?_, ?_⟩
  · intro earlier bound later split settled
    subst split
    obtain ⟨base, words, tracks⟩ := schedule_tracks _ earlier schedule.earlier
    have ended := schedule.pull_ends
    generalize pulled : ((boot image inputs options).session earlier).2.pull bound = result
      at settled ended ⊢
    obtain ⟨outcome, here⟩ := result
    have reached := tracks.settle bound outcome here pulled settled ended
    have reference := preloaded_pulls image inputs options (earlier ++ [.pull bound]) here []
      (later.flatMap Request.words) reached
    have sameWords : (earlier ++ [Request.pull bound]).flatMap Request.words ++
        later.flatMap Request.words =
          (earlier ++ Request.pull bound :: later).flatMap Request.words := by
      rw [← List.flatMap_append, List.append_assoc, List.singleton_append]
    rw [sameWords] at reference
    exact ⟨_, reference, rfl, rfl, rfl, rfl⟩
  · intro other otherSchedule sameWords sameLength
    obtain ⟨last, reference⟩ := pulls requests schedule
    obtain ⟨otherLast, otherReference⟩ := pulls other otherSchedule
    rw [sameWords] at otherReference
    exact (otherReference.unique reference sameLength).1

/-- A sum of two words, each pulled for before it is queued: two pulls starve, and the third one
outputs. -/
theorem late_words_are_added :
    (boot [3, 0, 3, 1, 1, 0, 1, 0, 4, 0, 99] [] {}).outcomes
        [.pull 9, .push 40, .pull 9, .extend [2], .pull 9] = [.ok (some 42)] ∧
      ∃ reference, start [3, 0, 3, 1, 1, 0, 1, 0, 4, 0, 99] [40, 2] {} = .ok reference ∧
        ∃ last, reference.PullsTo [.ok (some 42)] last := by
  have answers : ((boot [3, 0, 3, 1, 1, 0, 1, 0, 4, 0, 99] [] {}).session
      [.pull 9, .push 40, .pull 9, .extend [2], .pull 9]).1 =
        [.pulled (.error (.failed (.starved 0))), .done, .pulled (.error (.failed (.starved 2))),
          .done, .pulled (.ok (some 42))] := rfl
  have schedule : (boot [3, 0, 3, 1, 1, 0, 1, 0, 4, 0, 99] [] {}).Schedule
      [.pull 9, .push 40, .pull 9, .extend [2], .pull 9] := by
    constructor
    · simp [Request.Plain]
    · rw [answers]
      simp
  obtain ⟨reference, started, pulls, _⟩ := starvation_is_transparent
    [3, 0, 3, 1, 1, 0, 1, 0, 4, 0, 99] [] {} _ rfl _ schedule
  exact ⟨rfl, reference, started, pulls⟩

end Execution

end Intcode
