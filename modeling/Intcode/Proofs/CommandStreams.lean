import Intcode.Command.Run
import Intcode.Proofs.RunEndings

/-!
# What a run reads and prints

Seen from outside, a command reads lines, prints text and complains. An exchange is what happens to
the three streams between two worlds; log messages are no part of it. Pulling a program's words and
printing them is an exchange at every pull, and so over a whole run: without lines to read, what is
printed are the words of the run, and what it ends with is what the run ends with. With lines, a run
that succeeds is one of the same program with all their words queued from the start.
-/

set_option autoImplicit false

namespace Intcode.Command

/-! ## Lines -/

/-- Lines at the front of a text, with their line feeds, and the text after them. -/
inductive ReadsLines : List Char → List String → List Char → Prop
  | done (text : List Char) : ReadsLines text [] text
  | line (text rest : List Char) (lines : List String) (left : text ≠ [])
      (later : ReadsLines (Text.splitLine text).2 lines rest) :
      ReadsLines text (String.ofList (Text.splitLine text).1 :: lines) rest

theorem ReadsLines.append {text middle rest : List Char} {lines others : List String}
    (first : ReadsLines text lines middle) (second : ReadsLines middle others rest) :
    ReadsLines text (lines ++ others) rest := by
  induction first with
  | done text => exact second
  | line text middle lines left later ih => exact .line text rest _ left (ih second)

/-! ## Exchanges -/

/-- From one world to the other these lines were read, this text was printed and these notes went to
standard error. -/
structure Exchange (before : World) (lines : List String) (text notes : String) (after : World) :
    Prop where
  reads : ReadsLines before.input lines after.input
  prints : after.output = before.output ++ text
  complains : after.complaints = before.complaints ++ notes

section Exchanges

variable {before middle after : World} {lines others : List String}
  {text more notes remarks : String}

/-- Whatever else changes, the streams have not been used. -/
theorem Exchange.untouched (input : after.input = before.input)
    (output : after.output = before.output) (complaints : after.complaints = before.complaints) :
    Exchange before [] "" "" after := by
  refine ⟨?_, by rw [output, String.append_empty], by rw [complaints, String.append_empty]⟩
  rw [input]
  exact .done before.input

theorem Exchange.refl (world : World) : Exchange world [] "" "" world :=
  .untouched rfl rfl rfl

theorem Exchange.trans (first : Exchange before lines text notes middle)
    (second : Exchange middle others more remarks after) :
    Exchange before (lines ++ others) (text ++ more) (notes ++ remarks) after := by
  refine ⟨first.reads.append second.reads, ?_, ?_⟩
  · rw [second.prints, first.prints, String.append_assoc]
  · rw [second.complains, first.complains, String.append_assoc]

/-- Nothing on the streams, and then an exchange. -/
theorem Exchange.after_silence (silence : Exchange before [] "" "" middle)
    (second : Exchange middle lines text notes after) : Exchange before lines text notes after := by
  simpa using silence.trans second

/-- What was printed can be read off the worlds. -/
theorem Exchange.unique (first : Exchange before lines text notes after)
    (second : Exchange before others more remarks after) : text = more ∧ notes = remarks := by
  have prints : before.output ++ text = before.output ++ more :=
    first.prints.symm.trans second.prints
  have complains : before.complaints ++ notes = before.complaints ++ remarks :=
    first.complains.symm.trans second.complains
  exact ⟨String.append_right_inj _ |>.mp prints, String.append_right_inj _ |>.mp complains⟩

end Exchanges

/-! ## Messages -/

theorem post_exchange (journal : Journal) (record : Record) (world : World) :
    Exchange world [] "" "" ((post journal record : StateM World Unit).run world).2 := by
  unfold post
  cases journal.toConsole record.level <;> cases journal.file with
  | none => exact .untouched rfl rfl rfl
  | some path => cases journal.toFile record.level <;> exact .untouched rfl rfl rfl

theorem announce_all_exchange (journal : Journal) (notices : List Notice) (world : World) :
    Exchange world [] "" ""
      ((notices.forM (announce journal) : StateM World Unit).run world).2 := by
  induction notices generalizing world with
  | nil => exact .refl world
  | cons notice notices ih =>
      exact (post_exchange journal (Record.ofNotice notice) world).after_silence (ih _)

/-! ## Single pulls -/

theorem library_injective {Value : Type} {result other : Except Error Value}
    (same : result.mapError Failure.library = other.mapError Failure.library) : result = other :=
  map_error_injective (fun _ _ same => Failure.library.inj same) same

/-- The lines in which words are printed. -/
def printed (words : List Int) : String :=
  String.join (words.map fun word => Text.decimal word ++ "\n")

theorem Exchange.with_word {before middle after : World} {lines : List String} {word : Int}
    {words : List Int} (first : Exchange before [] (printed [word]) "" middle)
    (others : Exchange middle lines (printed words) "" after) :
    Exchange before lines (printed (word :: words)) "" after := by
  simpa [printed] using first.trans others

/-- Pulls and prints in a world. -/
def World.pullAll (world : World) (fuel : Nat) (journal : Journal) (stdin : Bool) (pulls : Nat)
    (execution : Execution) : (Except Failure Unit × Execution) × World :=
  (Command.pullAll fuel journal stdin pulls execution :
    StateM World (Except Failure Unit × Execution)).run world

section SinglePulls

variable {fuel : Nat} {execution next : Execution}

theorem noting_of_pull {outcome : Except Stop (Option Int)}
    (pulled : execution.pull fuel = (outcome, next)) :
    ∃ notices, execution.pullNoting fuel = (outcome, next, notices) := by
  unfold Execution.pullNoting
  rw [pulled]
  exact ⟨_, rfl⟩

variable (journal : Journal) (stdin : Bool) (pulls : Nat) (world : World)

theorem pull_all_word {word : Int} (pulled : execution.pull fuel = (.ok (some word), next)) :
    ∃ middle, Exchange world [] (printed [word]) "" middle ∧
      world.pullAll fuel journal stdin (pulls + 1) execution =
        middle.pullAll fuel journal stdin pulls next := by
  obtain ⟨notices, noting⟩ := noting_of_pull pulled
  let told := ((notices.forM (announce journal) : StateM World Unit).run world).2
  refine ⟨{ told with output := told.output ++ printed [word] }, ?_, ?_⟩
  · exact (announce_all_exchange journal notices world).after_silence
      ⟨.done _, rfl, String.append_empty.symm⟩
  · unfold World.pullAll
    rw [pullAll, noting, printed]
    simp only [List.map_cons, List.map_nil, String.join_cons, String.join_nil, String.append_empty]
    rfl

theorem pull_all_halted (pulled : execution.pull fuel = (.ok none, next)) :
    ∃ after, Exchange world [] "" "" after ∧
      world.pullAll fuel journal stdin (pulls + 1) execution =
        (((next.verdict (.ok ())).mapError .library, next), after) := by
  obtain ⟨notices, noting⟩ := noting_of_pull pulled
  refine ⟨_, announce_all_exchange journal notices world, ?_⟩
  unfold World.pullAll
  rw [pullAll, noting, Execution.verdict]
  dsimp only
  cases next.options.refuseLeftovers && !next.queue.isEmpty <;> rfl

theorem pull_all_stopped {stop : Stop} (pulled : execution.pull fuel = (.error stop, next))
    (unheard : stdin = false ∨ ¬ Execution.Starved (.error stop)) :
    ∃ after, Exchange world [] "" "" after ∧
      world.pullAll fuel journal stdin (pulls + 1) execution =
        ((.error (Failure.ofStop stop), next), after) := by
  obtain ⟨notices, noting⟩ := noting_of_pull pulled
  refine ⟨_, announce_all_exchange journal notices world, ?_⟩
  unfold World.pullAll
  rw [pullAll, noting]
  dsimp only
  split
  case h_1 pointer =>
    rcases unheard with unheard | supplied
    · exact absurd unheard (by simp)
    · exact absurd ⟨pointer, rfl⟩ supplied
  case h_2 => rfl

theorem take_line_ok (line : String) (fed : Execution) (taken : takeLine next line = .ok fed) :
    line.isEmpty = false ∧ ∃ words, wordsOfText line = .ok words ∧
      (∀ word ∈ words, Word.Fits word) ∧ fed = next.feed words := by
  unfold takeLine at taken
  split at taken
  case isTrue closed => cases taken
  case isFalse present =>
    split at taken
    case h_1 fault unread => cases taken
    case h_2 words wordsRead =>
      have pushed : next.pushAll words = .ok fed := library_injective taken
      obtain ⟨same, fits⟩ := Execution.push_all_ok next fed words pushed
      exact ⟨by simpa using present, words, wordsRead, fits, same⟩

/-- After a pull that starved, the next line decides. -/
theorem pull_all_line {pointer : Nat}
    (pulled : execution.pull fuel = (.error (.failed (.starved pointer)), next)) :
    ∃ line middle, (line.isEmpty = false → Exchange world [line] "" "" middle) ∧
      world.pullAll fuel journal true (pulls + 1) execution =
        (match takeLine next line with
          | .error failure => pure (.error failure, next)
          | .ok fed => pullAll fuel journal true pulls fed :
          StateM World (Except Failure Unit × Execution)).run middle := by
  obtain ⟨notices, noting⟩ := noting_of_pull pulled
  let told := ((notices.forM (announce journal) : StateM World Unit).run world).2
  let line := String.ofList (Text.splitLine told.input).1
  let middle : World := { told with input := (Text.splitLine told.input).2 }
  refine ⟨line, middle, ?_, ?_⟩
  · intro present
    refine (announce_all_exchange journal notices world).after_silence ?_
    refine ⟨.line _ _ _ ?_ (.done _), String.append_empty.symm, String.append_empty.symm⟩
    intro nothing
    rw [String.isEmpty_eq_false_iff] at present
    apply present
    change String.ofList (Text.splitLine told.input).1 = ""
    rw [nothing]
    rfl
  · rw [World.pullAll, pullAll, noting]
    rfl

/-- A run goes on after a line only if it is there, holds a list of words, and they are accepted. -/
theorem pull_all_heard {pointer : Nat} {last : Execution} {after : World}
    (pulled : execution.pull fuel = (.error (.failed (.starved pointer)), next))
    (succeeds : world.pullAll fuel journal true (pulls + 1) execution = ((.ok (), last), after)) :
    ∃ line words middle, Exchange world [line] "" "" middle ∧ wordsOfText line = .ok words ∧
      (∀ word ∈ words, Word.Fits word) ∧
      middle.pullAll fuel journal true pulls (next.feed words) = ((.ok (), last), after) := by
  obtain ⟨line, middle, heard, same⟩ := pull_all_line journal pulls world pulled
  rw [same] at succeeds
  cases taken : takeLine next line with
  | error failure =>
      rw [taken] at succeeds
      cases succeeds
  | ok fed =>
      rw [taken] at succeeds
      obtain ⟨present, words, parsed, fits, rfl⟩ := take_line_ok line fed taken
      exact ⟨line, words, middle, heard present, parsed, fits, succeeds⟩

end SinglePulls

/-! ## Runs without lines -/

section Unattended

variable {execution middle last : Execution} {words : List Int} {result : Except Error Unit}
  (journal : Journal)

theorem pull_all_ended {fuel : Nat} {outcome : Except Error Unit}
    (pulled : execution.pull fuel = (Execution.inTime (outcome.map fun _ => none), last))
    (pulls : Nat) (world : World) :
    ∃ after, Exchange world [] "" "" after ∧
      world.pullAll fuel journal false (pulls + 1) execution =
        (((last.verdict outcome).mapError .library, last), after) := by
  cases outcome with
  | ok halted => exact pull_all_halted journal false pulls world pulled
  | error error => exact pull_all_stopped journal false pulls world pulled (.inl rfl)

/-- Words that pulls give are printed one after the other, whatever comes after them. -/
theorem pull_all_of_speaks (speaks : execution.Speaks words middle) :
    ∃ enough, ∀ fuel, enough ≤ fuel → ∀ stdin pulls (world : World), ∃ later,
      Exchange world [] (printed words) "" later ∧
        world.pullAll fuel journal stdin (words.length + pulls) execution =
          later.pullAll fuel journal stdin pulls middle := by
  induction speaks with
  | silent execution =>
      refine ⟨0, ?_⟩
      intro fuel _ stdin pulls world
      exact ⟨world, .refl world, by simp⟩
  | word execution next last word words pulls rest ih =>
      obtain ⟨enough, pulled⟩ := pulls.with_more
      obtain ⟨enoughLater, continued⟩ := ih
      refine ⟨max enough enoughLater, ?_⟩
      intro fuel bound stdin pulls world
      obtain ⟨before, first, steps⟩ := pull_all_word journal stdin (words.length + pulls) world
        (pulled fuel (by omega))
      obtain ⟨later, others, same⟩ := continued fuel (by omega) stdin pulls before
      refine ⟨later, first.with_word others, ?_⟩
      rw [List.length_cons, Nat.add_right_comm, steps, same]

theorem pull_all_of_runs (runs : execution.Runs words result last) :
    ∃ enough, ∀ fuel pulls, enough ≤ fuel → enough ≤ pulls → ∀ world : World, ∃ after,
      Exchange world [] (printed words) "" after ∧
        world.pullAll fuel journal false pulls execution =
          ((result.mapError .library, last), after) := by
  obtain ⟨outcome, ⟨middle, speaks, ends⟩, rfl⟩ := Execution.runs_iff.mp runs
  obtain ⟨enough, spoken⟩ := pull_all_of_speaks journal speaks
  obtain ⟨enoughLater, pulled⟩ := ends.with_more
  refine ⟨max enough enoughLater + words.length + 1, ?_⟩
  intro fuel pulls enoughFuel enoughPulls world
  obtain ⟨rest, rfl⟩ : ∃ rest, pulls = words.length + (rest + 1) :=
    ⟨pulls - words.length - 1, by omega⟩
  obtain ⟨later, first, same⟩ := spoken fuel (by omega) false (rest + 1) world
  obtain ⟨after, silence, ended⟩ := pull_all_ended journal (pulled fuel (by omega)) rest later
  refine ⟨after, ?_, same.trans ended⟩
  simpa using first.trans silence

/-- What pulling does, however much it is allowed to. -/
theorem runs_of_pull_all (fuel pulls : Nat) (execution last : Execution) (world after : World)
    (ending : Except Failure Unit)
    (pulled : world.pullAll fuel journal false pulls execution = ((ending, last), after)) :
    ∃ words, Exchange world [] (printed words) "" after ∧
      ((ending = .error .outOfFuel ∧ ∃ middle, execution.Speaks words middle) ∨
        ∃ result, ending = result.mapError .library ∧ execution.Runs words result last) := by
  induction pulls generalizing execution world with
  | zero =>
      cases pulled
      exact ⟨[], .refl _, .inl ⟨rfl, _, .silent _⟩⟩
  | succ pulls ih =>
      generalize found : execution.pull fuel = pull
      obtain ⟨outcome, next⟩ := pull
      match outcome, found with
      | .ok (some word), found =>
          obtain ⟨middle, first, same⟩ := pull_all_word journal false pulls world found
          obtain ⟨words, others, ends⟩ := ih next middle (same ▸ pulled)
          refine ⟨word :: words, first.with_word others, ?_⟩
          rcases ends with ⟨cut, stop, speaks⟩ | ⟨result, ended, runs⟩
          · exact .inl ⟨cut, stop, .word execution next stop word words ⟨fuel, found⟩ speaks⟩
          · exact .inr ⟨result, ended,
              .word execution next last word words result ⟨fuel, found⟩ runs⟩
      | .ok none, found =>
          obtain ⟨final, silence, same⟩ := pull_all_halted journal false pulls world found
          cases same.symm.trans pulled
          exact ⟨[], silence, .inr ⟨_, rfl, .ended execution last (.ok ()) _ ⟨fuel, found⟩ rfl⟩⟩
      | .error .outOfFuel, found =>
          obtain ⟨final, silence, same⟩ :=
            pull_all_stopped journal false pulls world found (.inl rfl)
          cases same.symm.trans pulled
          exact ⟨[], silence, .inl ⟨rfl, execution, .silent execution⟩⟩
      | .error (.failed error), found =>
          obtain ⟨final, silence, same⟩ :=
            pull_all_stopped journal false pulls world found (.inl rfl)
          cases same.symm.trans pulled
          exact ⟨[], silence, .inr ⟨.error error, rfl,
            .ended execution last (.error error) _ ⟨fuel, found⟩ rfl⟩⟩

end Unattended

/-! ## Runs with lines -/

/-- A run that succeeded with batches of words which came when it starved: the same run with all of
them queued succeeds, and with all but the last it starves. -/
structure Supplied (execution : Execution) (batches : List (List Int)) (words : List Int)
    (last : Execution) : Prop where
  fits : ∀ word ∈ batches.flatten, Word.Fits word
  runs : (execution.feed batches.flatten).Runs words (.ok ()) last
  needed : batches ≠ [] → ∃ heard pointer stuck,
    (execution.feed batches.dropLast.flatten).Runs heard (.error (.starved pointer)) stuck

section Supplied

variable {fuel : Nat} {execution next last : Execution} {batches : List (List Int)}
  {words : List Int}

theorem Supplied.halted (runs : execution.Runs words (.ok ()) last) :
    Supplied execution [] words last where
  fits := by simp
  runs := by simpa [Execution.feed_nil] using runs
  needed := fun some => absurd rfl some

theorem Supplied.word {word : Int} (pulled : execution.pull fuel = (.ok (some word), next))
    (supplied : Supplied next batches words last) :
    Supplied execution batches (word :: words) last where
  fits := supplied.fits
  runs := .word _ _ last word words _ (Execution.Pulls.feed ⟨fuel, pulled⟩ _) supplied.runs
  needed := by
    intro some
    obtain ⟨heard, pointer, stuck, starves⟩ := supplied.needed some
    exact ⟨word :: heard, pointer, stuck,
      .word _ _ stuck word heard _ (Execution.Pulls.feed ⟨fuel, pulled⟩ _) starves⟩

theorem Supplied.batch {pointer : Nat} {batch : List Int}
    (pulled : execution.pull fuel = (.error (.failed (.starved pointer)), next))
    (fits : ∀ word ∈ batch, Word.Fits word)
    (supplied : Supplied (next.feed batch) batches words last) :
    Supplied execution (batch :: batches) words last where
  fits := by
    intro word member
    rw [List.flatten_cons] at member
    rcases List.mem_append.mp member with early | late
    · exact fits word early
    · exact supplied.fits word late
  runs := by
    have runs := supplied.runs
    rw [Execution.feed_feed] at runs
    exact Execution.Runs.resumed pulled runs
  needed := by
    intro _
    cases batches with
    | nil =>
        -- The pull that starved is all there is without the only batch.
        rw [List.dropLast_singleton, List.flatten_nil, Execution.feed_nil]
        exact ⟨[], pointer, next, .ended execution next (.error (.starved pointer)) _
          ⟨fuel, pulled⟩ rfl⟩
    | cons second batches =>
        obtain ⟨heard, pointer, stuck, starves⟩ := supplied.needed (by simp)
        rw [Execution.feed_feed] at starves
        exact ⟨heard, pointer, stuck, Execution.Runs.resumed pulled starves⟩

end Supplied

theorem batches_of_lines (lines : List String) (batches : List (List Int))
    (parsed : lines.mapM wordsOfText = .ok batches) (some : lines ≠ []) : batches ≠ [] := by
  cases lines with
  | nil => exact absurd rfl some
  | cons line lines =>
      rw [List.mapM_cons] at parsed
      obtain ⟨batch, _, parsed⟩ := Machine.bind_ok parsed
      obtain ⟨others, _, parsed⟩ := Machine.bind_ok parsed
      cases parsed
      exact List.cons_ne_nil batch others

theorem supplied_of_pull_all (journal : Journal) (fuel pulls : Nat) (execution last : Execution)
    (world after : World)
    (pulled : world.pullAll fuel journal true pulls execution = ((.ok (), last), after)) :
    ∃ lines batches words, Exchange world lines (printed words) "" after ∧
      lines.mapM wordsOfText = .ok batches ∧ Supplied execution batches words last := by
  induction pulls generalizing execution world with
  | zero => cases pulled
  | succ pulls ih =>
      generalize found : execution.pull fuel = pull
      obtain ⟨outcome, next⟩ := pull
      match outcome, found with
      | .ok (some word), found =>
          obtain ⟨middle, first, same⟩ := pull_all_word journal true pulls world found
          obtain ⟨lines, batches, words, others, parsed, supplied⟩ := ih next middle (same ▸ pulled)
          exact ⟨lines, batches, word :: words, first.with_word others, parsed,
            supplied.word found⟩
      | .ok none, found =>
          obtain ⟨final, silence, same⟩ := pull_all_halted journal true pulls world found
          have ended := same.symm.trans pulled
          simp only [Prod.mk.injEq] at ended
          obtain ⟨⟨judged, rfl⟩, rfl⟩ := ended
          have verdict : .ok () = next.verdict (.ok ()) := library_injective judged.symm
          exact ⟨[], [], [], silence, rfl,
            .halted (.ended execution next (.ok ()) _ ⟨fuel, found⟩ verdict)⟩
      | .error stop, found =>
          by_cases starved : Execution.Starved (.error stop)
          · obtain ⟨pointer, waiting⟩ := starved
            rw [waiting] at found
            obtain ⟨line, batch, middle, heard, parsed, fits, later⟩ :=
              pull_all_heard journal pulls world found pulled
            obtain ⟨lines, batches, words, others, parsedOthers, supplied⟩ := ih _ middle later
            refine ⟨line :: lines, batch :: batches, words, ?_, ?_, supplied.batch found fits⟩
            · simpa using heard.trans others
            · rw [List.mapM_cons, parsed, parsedOthers]
              rfl
          · obtain ⟨final, silence, same⟩ :=
              pull_all_stopped journal true pulls world found (.inr starved)
            cases same.symm.trans pulled

end Intcode.Command
