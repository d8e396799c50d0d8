import Intcode.Proofs.CommandRequests

/-!
# The run command and the library

The run command pulls by itself instead of asking the library for a complete run, and with lines to
read it pulls again after each. Still it agrees with the library: without lines it succeeds exactly
if the library returns a list and fails with the library's error otherwise, and what it prints are
the words that pulls give. With lines, what it prints is what it prints without them if their words
are among the inputs, and no line is read too early: without the words of the last one, the program
would starve.
-/

set_option autoImplicit false

namespace Intcode.Command

/-- Under any sufficient bound, the command without lines ends so, prints this text and sends these
notes to standard error. -/
def RunRequest.Ends (request : RunRequest) (journal : Journal) (world : World)
    (result : Except Failure Unit) (text notes : String) : Prop :=
  result ≠ .error .outOfFuel ∧ ∃ enough, ∀ fuel, enough ≤ fuel → ∃ final,
    world.carryOut journal request false fuel = (result, final) ∧
      Exchange (world.past request.source) [] text notes final

/-- The command without lines and the library, given the same program and options. -/
structure Agreement (journal : Journal) (world : World) (request : RunRequest) (program : Program)
    (options : Options) (fresh : Execution) : Prop where
  started : program.start options = .ok fresh
  /-- If the library returns a list, it is what pulls give up to a halt, and the command succeeds.
  It prints that list and then the words that were asked for. -/
  returned : ∀ words, program.Returns options (.ok words) → ∃ last,
    fresh.Exhausts words (.ok ()) last ∧
      request.Ends journal world (.ok ()) (printed words ++ dumped last request.dumps)
        (request.traceText last)
  /-- If the library fails, the command prints what pulls give before one gives no word, and fails
  with the same error. -/
  raised : ∀ error, program.Returns options (.error error) → ∃ words ending last,
    fresh.Exhausts words ending last ∧
      request.Ends journal world (.error (.library error)) (printed words) (request.traceText last)
  /-- The command succeeds only if the library returns a list. -/
  succeeds : ∀ text notes, request.Ends journal world (.ok ()) text notes →
    ∃ words last, program.Returns options (.ok words) ∧ fresh.Exhausts words (.ok ()) last ∧
      text = printed words ++ dumped last request.dumps ∧ notes = request.traceText last
  /-- The command fails only if the library does, and with its error. -/
  fails : ∀ failure text notes, request.Ends journal world (.error failure) text notes →
    ∃ error words ending last, failure = .library error ∧
      program.Returns options (.error error) ∧ fresh.Exhausts words ending last ∧
      text = printed words ∧ notes = request.traceText last
  /-- A command that is not cut off does the same under any greater bound. -/
  settles : ∀ fuel result final, world.carryOut journal request false fuel = (result, final) →
    result ≠ .error .outOfFuel → ∃ text notes, request.Ends journal world result text notes ∧
      Exchange (world.past request.source) [] text notes final
  /-- One that is cut off has printed words that pulls give, and nothing else. -/
  cutOff : ∀ fuel final, world.carryOut journal request false fuel = (.error .outOfFuel, final) →
    ∃ words middle notes, fresh.Speaks words middle ∧
      Exchange (world.past request.source) [] (printed words) notes final
  /-- Words that pulls give are printed under any sufficient bound. -/
  reaches : ∀ words middle, fresh.Speaks words middle → ∃ enough, ∀ fuel, enough ≤ fuel →
    ∃ rest notes, Exchange (world.past request.source) [] (printed words ++ rest) notes
      (world.carryOut journal request false fuel).2

section Agreement

variable (journal : Journal) {world : World} {request : RunRequest} {text : String}
  {program : Program} {options : Options} {fresh : Execution}
  (found : world.sourceText request.source = .ok text)
  (prepared : request.prepare text = .ok (program, options))
  (started : program.start options = .ok fresh)

include found prepared started

/-- Where the pulls begin, and what comes after them. -/
theorem carry_out_pulls : ∃ begun, Exchange (world.past request.source) [] "" "" begun ∧
    ∀ stdin fuel ending last ended,
      begun.pullAll fuel journal stdin fuel fresh = ((ending, last), ended) →
      ∃ final, Exchange ended [] (request.dumpText last ending) (request.traceText last) final ∧
        world.carryOut journal request stdin fuel = (ending, final) := by
  obtain ⟨loaded, silence, carried⟩ := carry_out_prepares journal world request text found
  obtain ⟨begun, moreSilence, runs⟩ :=
    run_program_ends journal request program options fresh started loaded
  refine ⟨begun, silence.after_silence moreSilence, ?_⟩
  intro stdin fuel ending last ended pulled
  obtain ⟨final, lastLines, ran⟩ := runs stdin fuel ending last ended pulled
  refine ⟨final, lastLines, ?_⟩
  rw [carried, prepared, ← ran]

theorem ends_of_runs {words : List Int} {outcome : Except Error Unit} {last : Execution}
    (runs : fresh.Runs words outcome last) :
    request.Ends journal world (outcome.mapError .library)
      (printed words ++ request.dumpText last (outcome.mapError .library))
      (request.traceText last) := by
  obtain ⟨begun, silence, carried⟩ := carry_out_pulls journal found prepared started
  obtain ⟨enough, pulled⟩ := pull_all_of_runs journal runs
  have inTime : outcome.mapError Failure.library ≠ .error .outOfFuel := by
    intro cut
    cases outcome <;> cases cut
  refine ⟨inTime, enough, ?_⟩
  intro fuel bound
  obtain ⟨ended, spoken, pulling⟩ := pulled fuel fuel bound bound begun
  obtain ⟨final, lastLines, same⟩ := carried false fuel _ last ended pulling
  refine ⟨final, same, ?_⟩
  simpa using silence.after_silence (spoken.trans lastLines)

/-- Under whatever bound, the command prints words that pulls give; if it is not cut off, they are
all the words of a run that ends as it does. -/
theorem runs_of_carry_out (fuel : Nat) (result : Except Failure Unit) (final : World)
    (ended : world.carryOut journal request false fuel = (result, final)) :
    ∃ words last, Exchange (world.past request.source) []
        (printed words ++ request.dumpText last result) (request.traceText last) final ∧
      ((result = .error .outOfFuel ∧ ∃ middle, fresh.Speaks words middle) ∨
        ∃ outcome, result = outcome.mapError .library ∧ fresh.Runs words outcome last) := by
  obtain ⟨begun, silence, carried⟩ := carry_out_pulls journal found prepared started
  generalize pulled : begun.pullAll fuel journal false fuel fresh = pulling
  obtain ⟨⟨ending, last⟩, after⟩ := pulling
  obtain ⟨finalWorld, lastLines, same⟩ := carried false fuel ending last after pulled
  cases same.symm.trans ended
  obtain ⟨words, spoken, ends⟩ := runs_of_pull_all journal fuel fuel fresh last begun after _ pulled
  refine ⟨words, last, ?_, ends⟩
  simpa using silence.after_silence (spoken.trans lastLines)

theorem runs_of_ends (result : Except Failure Unit) (shown notes : String)
    (ends : request.Ends journal world result shown notes) :
    ∃ words outcome last, fresh.Runs words outcome last ∧ result = outcome.mapError .library ∧
      shown = printed words ++ request.dumpText last result ∧ notes = request.traceText last := by
  obtain ⟨inTime, fuel, ended⟩ := ends
  obtain ⟨final, carried, exchanged⟩ := ended fuel (by omega)
  obtain ⟨words, last, exchangedToo, cut | ⟨outcome, rfl, runs⟩⟩ :=
    runs_of_carry_out journal found prepared started fuel result final carried
  · exact absurd cut.1 inTime
  · obtain ⟨sameText, sameNotes⟩ := exchanged.unique exchangedToo
    exact ⟨words, outcome, last, runs, rfl, sameText, sameNotes⟩

theorem prints_of_speaks {words : List Int} {middle : Execution}
    (speaks : fresh.Speaks words middle) :
    ∃ enough, ∀ fuel, enough ≤ fuel → ∃ rest notes,
      Exchange (world.past request.source) [] (printed words ++ rest) notes
        (world.carryOut journal request false fuel).2 := by
  obtain ⟨begun, silence, carried⟩ := carry_out_pulls journal found prepared started
  obtain ⟨enough, spoken⟩ := pull_all_of_speaks journal speaks
  refine ⟨max enough words.length, ?_⟩
  intro fuel bound
  obtain ⟨later, first, continued⟩ :=
    spoken fuel (by omega) false (fuel - words.length) begun
  generalize pulled : later.pullAll fuel journal false (fuel - words.length) middle = pulling
  obtain ⟨⟨ending, last⟩, after⟩ := pulling
  rw [Nat.add_sub_of_le (by omega), pulled] at continued
  obtain ⟨others, more, _⟩ :=
    runs_of_pull_all journal fuel _ middle last later after ending pulled
  obtain ⟨final, lastLines, same⟩ := carried false fuel ending last after continued
  rw [same]
  refine ⟨printed others ++ request.dumpText last ending, request.traceText last, ?_⟩
  simpa [String.append_assoc] using silence.after_silence (first.trans (more.trans lastLines))

theorem agreement : Agreement journal world request program options fresh where
  started := started
  returned := by
    intro words returns
    obtain ⟨spoken, result, last, runs, same⟩ :=
      (program.returns_iff options fresh started _).mp returns
    cases result with
    | error error => cases same
    | ok halted =>
        cases same
        exact ⟨last, runs.halts, ends_of_runs journal found prepared started runs⟩
  raised := by
    intro error returns
    obtain ⟨words, result, last, runs, same⟩ :=
      (program.returns_iff options fresh started _).mp returns
    cases result with
    | ok halted => cases same
    | error problem =>
        cases same
        obtain ⟨ending, exhausts, _⟩ := Execution.runs_iff.mp runs
        have ends : request.Ends journal world (.error (.library error)) (printed words ++ "")
            (request.traceText last) := ends_of_runs journal found prepared started runs
        rw [String.append_empty] at ends
        exact ⟨words, ending, last, exhausts, ends⟩
  succeeds := by
    intro shown notes ends
    obtain ⟨words, outcome, last, runs, succeeded, sameText, sameNotes⟩ :=
      runs_of_ends journal found prepared started _ shown notes ends
    have ok : outcome = .ok () := library_injective succeeded.symm
    rw [ok] at runs
    refine ⟨words, last, ?_, runs.halts, sameText, sameNotes⟩
    exact (program.returns_iff options fresh started _).mpr ⟨words, .ok (), last, runs, rfl⟩
  fails := by
    intro failure shown notes ends
    obtain ⟨words, outcome, last, runs, failed, sameText, sameNotes⟩ :=
      runs_of_ends journal found prepared started _ shown notes ends
    obtain ⟨ending, exhausts, _⟩ := Execution.runs_iff.mp runs
    cases outcome with
    | ok halted => cases failed
    | error error =>
        cases failed
        refine ⟨error, words, ending, last, rfl, ?_, exhausts,
          sameText.trans String.append_empty, sameNotes⟩
        exact (program.returns_iff options fresh started _).mpr
          ⟨words, .error error, last, runs, rfl⟩
  settles := by
    intro fuel result final carried inTime
    obtain ⟨words, last, exchanged, cut | ⟨outcome, rfl, runs⟩⟩ :=
      runs_of_carry_out journal found prepared started fuel result final carried
    · exact absurd cut.1 inTime
    · exact ⟨_, _, ends_of_runs journal found prepared started runs, exchanged⟩
  cutOff := by
    intro fuel final carried
    obtain ⟨words, last, exchanged, ⟨_, middle, speaks⟩ | ⟨outcome, failed, runs⟩⟩ :=
      runs_of_carry_out journal found prepared started fuel _ final carried
    · exact ⟨words, middle, _, speaks, by simpa [RunRequest.dumpText] using exchanged⟩
    · cases outcome <;> cases failed
  reaches := by
    intro words middle speaks
    exact prints_of_speaks journal found prepared started speaks

end Agreement

/-! ## With lines -/

section Supplied

variable (journal : Journal) {world : World} {request : RunRequest} {text : String}
  (found : world.sourceText request.source = .ok text)

include found

/-- A run with words behind the inputs is one of the command with these words among its inputs. -/
theorem ends_of_fed_runs {program : Program} {options : Options} {batches : List (List Int)}
    {words : List Int} {outcome : Except Error Unit} {last : Execution}
    (prepared : request.prepare text = .ok (program, options))
    (fits : ∀ word ∈ batches.flatten, Word.Fits word)
    (runs : ((Execution.boot program.words program.inputs options).feed batches.flatten).Runs
      words outcome last) :
    (request.extend batches).Ends journal world (outcome.mapError .library)
      (printed words ++ request.dumpText last (outcome.mapError .library))
      (request.traceText last) := by
  let origin := Execution.boot program.words (program.inputs ++ batches.flatten) options
  have extended := request.prepare_extend text program options prepared batches fits
  have started := (request.extend batches).prepare_starts text _ options extended
  have relabelled : origin.Runs words outcome (last.relabel origin) := runs.relabel origin rfl
  have named : world.sourceText (request.extend batches).source = .ok text := found
  have ends := ends_of_runs journal named extended started relabelled
  exact ends

/-- A command that succeeds after reading lines does what it does without lines, given their words
as inputs; given all but those of the last line, it starves. -/
theorem ends_of_lines (fuel : Nat) (final : World)
    (succeeds : world.carryOut journal request true fuel = (.ok (), final)) :
    ∃ lines batches shown notes, lines.mapM wordsOfText = .ok batches ∧
      Exchange (world.past request.source) lines shown notes final ∧
      (request.extend batches).Ends journal world (.ok ()) shown notes ∧
      (lines ≠ [] → ∃ pointer early warnings,
        (request.extend batches.dropLast).Ends journal world
          (.error (.library (.starved pointer))) early warnings) := by
  obtain ⟨loaded, _, prepares⟩ := carry_out_prepares journal world request text found
  cases prepared : request.prepare text with
  | error error =>
      rw [prepares, prepared] at succeeds
      cases succeeds
  | ok accepted =>
      obtain ⟨program, options⟩ := accepted
      have started := request.prepare_starts text program options prepared
      obtain ⟨begun, silence, carried⟩ := carry_out_pulls journal found prepared started
      generalize pulled : begun.pullAll fuel journal true fuel
        (Execution.boot program.words program.inputs options) = pulling
      obtain ⟨⟨ending, last⟩, after⟩ := pulling
      obtain ⟨finalWorld, lastLines, same⟩ := carried true fuel ending last after pulled
      cases same.symm.trans succeeds
      obtain ⟨lines, batches, words, exchanged, parsed, supplied⟩ :=
        supplied_of_pull_all journal fuel fuel _ last begun after pulled
      refine ⟨lines, batches, printed words ++ request.dumpText last (.ok ()),
        request.traceText last, parsed, ?_,
        ends_of_fed_runs journal found prepared supplied.fits supplied.runs, ?_⟩
      · simpa using silence.after_silence (exchanged.trans lastLines)
      · intro some
        obtain ⟨heard, pointer, stuck, starves⟩ :=
          supplied.needed (batches_of_lines lines batches parsed some)
        refine ⟨pointer, _, _, ends_of_fed_runs journal found prepared ?_ starves⟩
        intro word member
        obtain ⟨batch, early, inside⟩ := List.mem_flatten.mp member
        exact supplied.fits word
          (List.mem_flatten.mpr ⟨batch, batches.dropLast_subset early, inside⟩)

end Supplied

/-! ## The whole command -/

/-- What the library refuses before a run, the command refuses with the same error. Else it agrees
with the library if it reads no lines, and if it does, and succeeds, it agrees with itself without
them. -/
theorem run_command_agrees_with_the_library (journal : Journal) (world : World)
    (request : RunRequest) (text : String) (found : world.sourceText request.source = .ok text) :
    (∀ error, request.prepare text = .error error → ∀ fuel, ∃ final,
      world.carryOut journal request false fuel = (.error (.library error), final) ∧
        Exchange (world.past request.source) [] "" "" final) ∧
    (∀ program options, request.prepare text = .ok (program, options) →
      ∃ fresh, Agreement journal world request program options fresh) ∧
    ∀ fuel final, world.carryOut journal request true fuel = (.ok (), final) →
      ∃ lines batches shown notes, lines.mapM wordsOfText = .ok batches ∧
        Exchange (world.past request.source) lines shown notes final ∧
        (request.extend batches).Ends journal world (.ok ()) shown notes ∧
        (lines ≠ [] → ∃ pointer early warnings,
          (request.extend batches.dropLast).Ends journal world
            (.error (.library (.starved pointer))) early warnings) := by
  refine ⟨?_, ?_, ?_⟩
  · intro error refused fuel
    obtain ⟨loaded, silence, carried⟩ := carry_out_prepares journal world request text found
    refine ⟨loaded, ?_, silence⟩
    rw [carried, refused]
  · intro program options prepared
    exact ⟨_, agreement journal found prepared
      (request.prepare_starts text program options prepared)⟩
  · intro fuel final succeeds
    exact ends_of_lines journal found fuel final succeeds

theorem ok_of_to_option {Problem Value : Type} {result : Except Problem Value} {value : Value}
    (given : result.toOption = some value) : result = .ok value := by
  cases result with
  | error problem => cases given
  | ok found => rw [Option.some.inj given]

/-- A program that adds two inputs, and four lines to read, the first of which is blank. -/
def summing : World :=
  { files :=
      { root := .directory [("sum",
          .file ("3,11,3,12,1,11,12,11,4,11,99".toList.map fun symbol => symbol.toNat.toUInt8))] }
    input := "\n5\n6\n7\n".toList }

/-- Three of the lines are read, and the sum is that of their words as inputs. -/
theorem lines_are_summed_as_inputs :
    summing.sourceText "sum" = .ok "3,11,3,12,1,11,12,11,4,11,99" ∧
      ∃ lines batches, lines.mapM wordsOfText = .ok batches ∧
        ReadsLines "\n5\n6\n7\n".toList lines "7\n".toList ∧
        (RunRequest.extend { source := "sum" } batches).Ends {} summing (.ok ()) "11\n" "" := by
  have found : summing.sourceText "sum" = .ok "3,11,3,12,1,11,12,11,4,11,99" :=
    ok_of_to_option (by decide +kernel)
  let ran := summing.carryOut {} { source := "sum" } true 20
  have succeeds : ran.1 = .ok () := ok_of_to_option (by decide +kernel)
  have output : ran.2.output = "11\n" := by decide +kernel
  have complaints : ran.2.complaints = "" := by decide +kernel
  have input : ran.2.input = "7\n".toList := by decide +kernel
  obtain ⟨lines, batches, shown, notes, parsed, exchanged, ends, _⟩ :=
    (run_command_agrees_with_the_library {} summing { source := "sum" } _ found).2.2 20 ran.2
      (Prod.ext succeeds rfl)
  have sum : shown = "11\n" := by
    have prints := exchanged.prints.symm.trans output
    simpa [World.past, summing] using prints
  have silent : notes = "" := by
    have complains := exchanged.complains.symm.trans complaints
    simpa [World.past, summing] using complains
  have reads := exchanged.reads
  rw [input] at reads
  subst sum silent
  exact ⟨found, lines, batches, parsed, reads, ends⟩

end Intcode.Command
