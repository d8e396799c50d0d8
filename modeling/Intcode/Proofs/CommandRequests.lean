import Intcode.Proofs.CommandStreams
import Intcode.Proofs.MemoryReads

/-!
# Requests to the run command

A request gives every option of the run command a value. The library is given the same request as a
program and options, which it may refuse; the command loads the program, refuses what the library
refuses, and otherwise pulls until the program stops, shows the trace and prints the words it was
asked for. What happens before the pulls and after them is one exchange each.
-/

set_option autoImplicit false

namespace Intcode.Command

/-! ## Requests -/

/-- What the run command is told, where every option that may be left without a value has one. -/
structure RunRequest where
  source : String
  patches : List Patch := []
  inputs : List (List Int) := []
  limit : Option Int := none
  trace : Bool := false
  allowUnusedInputs : Bool := false
  dumps : List Nat := []

/-- The settings of the command, which may also read lines. -/
def RunRequest.settings (request : RunRequest) (stdin : Bool) : RunSettings :=
  { program := some request.source
    inputs := request.inputs
    patches := request.patches.map some
    stdin
    limit := request.limit.map some
    trace := request.trace
    allowUnusedInputs := request.allowUnusedInputs
    dumps := request.dumps.map fun (address : Nat) => some (address : Int) }

/-- Patches a program at one address after the other. -/
def patchAll (program : Program) (patches : List Patch) : Except Error Program :=
  patches.foldlM (fun (program : Program) patch => program.patch patch.address patch.value) program

/-- The options of the library for a request. -/
def RunRequest.options (request : RunRequest) : Except Error Options :=
  Options.withLimit { trace := request.trace, refuseLeftovers := !request.allowUnusedInputs }
    request.limit

/-- A program and options as a request asks for them. -/
def RunRequest.equip (request : RunRequest) (loaded : Program) :
    Except Error (Program × Options) := do
  let patched ← patchAll loaded request.patches
  let program ← patched.loadInputs request.inputs.flatten
  return (program, ← request.options)

/-- The program and the options that the library is given for a request, with the text of the
program. -/
def RunRequest.prepare (request : RunRequest) (text : String) : Except Error (Program × Options) :=
  (Program.ofText text).bind request.equip

/-- A request with more batches of inputs behind its own. -/
def RunRequest.extend (request : RunRequest) (batches : List (List Int)) : RunRequest :=
  { request with inputs := request.inputs ++ batches }

/-- The text of a program in a world. -/
def World.sourceText (world : World) (source : String) : Except Failure String :=
  if source = "-" then .ok (String.ofList world.input)
  else
    match world.files.read (.ofText source) with
    | .error fault => .error (.file fault)
    | .ok bytes =>
        match Text.Utf8.decode bytes with
        | .error fault => .error (.undecodable fault)
        | .ok text => .ok (String.ofList (Text.unifyLineEnds text))

/-- The world once a program has been read. -/
def World.past (world : World) (source : String) : World :=
  if source = "-" then { world with input := [] } else world

/-- Carries out a request. -/
def World.carryOut (world : World) (journal : Journal) (request : RunRequest) (stdin : Bool)
    (fuel : Nat) : Except Failure Unit × World :=
  (runCommand fuel journal (request.settings stdin) : ExceptT Failure (StateM World) Unit).run.run
    world

/-! ## What the library accepts -/

theorem RunRequest.prepare_ok_iff (request : RunRequest) (text : String) (program : Program)
    (options : Options) :
    request.prepare text = .ok (program, options) ↔
      ∃ patched, (Program.ofText text).bind (patchAll · request.patches) = .ok patched ∧
        request.options = .ok options ∧ (∀ word ∈ request.inputs.flatten, Word.Fits word) ∧
        program = { patched with inputs := request.inputs.flatten } := by
  constructor
  · intro prepared
    obtain ⟨loaded, parsed, equipped⟩ := Machine.bind_ok prepared
    obtain ⟨patched, patching, equipped⟩ := Machine.bind_ok equipped
    obtain ⟨supplied, loads, equipped⟩ := Machine.bind_ok equipped
    obtain ⟨given, limited, equipped⟩ := Machine.bind_ok equipped
    cases equipped
    obtain ⟨same, fits⟩ := Program.load_inputs_ok patched program _ loads
    refine ⟨patched, ?_, limited, fits, same⟩
    rw [parsed]
    exact patching
  · rintro ⟨patched, patching, limited, fits, rfl⟩
    obtain ⟨loaded, parsed, patching⟩ := Machine.bind_ok patching
    have loads := Program.load_inputs_of_fits patched request.inputs.flatten fits
    rw [RunRequest.prepare, parsed, Except.bind, RunRequest.equip, patching, limited]
    simp only [bind, Except.bind, loads]
    rfl

/-- What is accepted with its inputs is accepted with more of them. -/
theorem RunRequest.prepare_extend (request : RunRequest) (text : String) (program : Program)
    (options : Options) (prepared : request.prepare text = .ok (program, options))
    (batches : List (List Int)) (fits : ∀ word ∈ batches.flatten, Word.Fits word) :
    (request.extend batches).prepare text =
      .ok ({ program with inputs := program.inputs ++ batches.flatten }, options) := by
  obtain ⟨patched, patching, limited, fitsBefore, rfl⟩ :=
    (request.prepare_ok_iff text program options).mp prepared
  apply (RunRequest.prepare_ok_iff _ _ _ _).mpr
  refine ⟨patched, patching, limited, ?_, by simp [extend]⟩
  intro word member
  simp only [extend, List.flatten_append] at member
  rcases List.mem_append.mp member with early | late
  · exact fitsBefore word early
  · exact fits word late

theorem RunRequest.prepare_starts (request : RunRequest) (text : String) (program : Program)
    (options : Options) (prepared : request.prepare text = .ok (program, options)) :
    program.start options = .ok (Execution.boot program.words program.inputs options) := by
  obtain ⟨patched, patching, limited, fits, rfl⟩ :=
    (request.prepare_ok_iff text program options).mp prepared
  exact Execution.start_of_fits patched.words request.inputs.flatten options fits

/-! ## Steps of a command -/

section Steps

variable {First Second : Type} {world after : World}
  {action : ExceptT Failure (StateM World) First}
  {next : First → ExceptT Failure (StateM World) Second}

theorem run_bind_ok {value : First} (ran : action.run.run world = (.ok value, after)) :
    (action >>= next).run.run world = (next value).run.run after := by
  rw [ExceptT.run_bind, StateT.run_bind, ran]
  rfl

theorem run_bind_error {failure : Failure} (ran : action.run.run world = (.error failure, after)) :
    (action >>= next).run.run world = (.error failure, after) := by
  rw [ExceptT.run_bind, StateT.run_bind, ran]
  rfl

theorem run_lift (action : StateM World First) :
    (liftM action : ExceptT Failure (StateM World) First).run.run world =
      (.ok (action.run world).1, (action.run world).2) := rfl

end Steps

theorem apply_patches_given (program : Program) (patches : List Patch) :
    applyPatches program (patches.map some) = (patchAll program patches).mapError .library := by
  unfold patchAll
  induction patches generalizing program with
  | nil => rfl
  | cons patch patches ih =>
      rw [List.foldlM_cons, List.map_cons, applyPatches, List.foldlM_cons]
      dsimp only
      cases program.patch patch.address patch.value with
      | error error => rfl
      | ok patched => exact ih patched

theorem options_of_given (request : RunRequest) (stdin : Bool) :
    optionsOf (request.settings stdin) = request.options.mapError .library := by
  unfold optionsOf RunRequest.settings RunRequest.options
  cases request.limit <;> rfl

theorem source_text_ok (world : World) (source text : String)
    (found : world.sourceText source = .ok text) :
    (source = "-" ∧ text = String.ofList world.input) ∨
      (source ≠ "-" ∧ ∃ bytes decoded, world.files.read (.ofText source) = .ok bytes ∧
        Text.Utf8.decode bytes = .ok decoded ∧
          text = String.ofList (Text.unifyLineEnds decoded)) := by
  unfold World.sourceText at found
  split at found
  case isTrue dash => exact .inl ⟨dash, (Except.ok.inj found).symm⟩
  case isFalse named =>
    split at found
    case h_1 fault missing => cases found
    case h_2 bytes present =>
      split at found
      case h_1 fault malformed => cases found
      case h_2 decoded symbols =>
        exact .inr ⟨named, bytes, decoded, present, symbols, (Except.ok.inj found).symm⟩

theorem load_found (journal : Journal) (world : World) (source text : String)
    (found : world.sourceText source = .ok text) :
    ∃ loaded, Exchange (world.past source) [] "" "" loaded ∧
      (load journal source : ExceptT Failure (StateM World) Program).run.run world =
        ((Program.ofText text).mapError .library, loaded) := by
  unfold load World.past
  rcases source_text_ok world source text found with
    ⟨dash, rfl⟩ | ⟨named, bytes, decoded, present, symbols, rfl⟩
  · simp only [if_pos dash]
    refine ⟨_, .refl _, ?_⟩
    have read : (Host.readAll : StateM World String).run world =
        (String.ofList world.input, { world with input := [] }) := rfl
    rw [run_bind_ok (run_lift Host.readAll), read]
    cases Program.ofText (String.ofList world.input) <;> rfl
  · simp only [if_neg named]
    have read : (Host.readFile source : StateM World (Except Files.Fault (List UInt8))).run world =
        (.ok bytes, world) := congrArg (·, world) present
    rw [run_bind_ok (run_lift (Host.readFile source)), read]
    simp only [symbols]
    cases Program.ofText (String.ofList (Text.unifyLineEnds decoded)) with
    | error error => exact ⟨world, .refl world, rfl⟩
    | ok program =>
        exact ⟨_, post_exchange journal (.ofNotice (.programParsed program.words.length)) world,
          rfl⟩

theorem run_result {Value : Type} (result : Except Failure Value) (world : World) :
    (ofResult result : ExceptT Failure (StateM World) Value).run.run world = (result, world) := rfl

/-! ## Preparation -/

theorem run_of_library {First Second : Type} (result : Except Error First)
    (next : First → ExceptT Failure (StateM World) Second) (world : World) :
    (ofLibrary result >>= next).run.run world =
      match result with
      | .error error => (.error (.library error), world)
      | .ok value => (next value).run.run world := by
  cases result <;> rfl

theorem run_equipped (request : RunRequest) (stdin : Bool) (loaded : Program)
    (next : Program → Options → ExceptT Failure (StateM World) Unit) (world : World) :
    (do
      let patched ← ofResult (applyPatches loaded (request.settings stdin).patches)
      let program ← ofLibrary (patched.loadInputs (request.settings stdin).inputs.flatten)
      let options ← ofResult (optionsOf (request.settings stdin))
      next program options).run.run world =
      match request.equip loaded with
      | .error error => (.error (.library error), world)
      | .ok (program, options) => (next program options).run.run world := by
  have patching : (ofResult (applyPatches loaded (request.settings stdin).patches) :
      ExceptT Failure (StateM World) Program) = ofLibrary (patchAll loaded request.patches) :=
    congrArg ofResult (apply_patches_given loaded request.patches)
  have limiting : (ofResult (optionsOf (request.settings stdin)) :
      ExceptT Failure (StateM World) Options) = ofLibrary request.options :=
    congrArg ofResult (options_of_given request stdin)
  have inputs : (request.settings stdin).inputs = request.inputs := rfl
  simp only [patching, limiting, inputs, run_of_library]
  unfold RunRequest.equip
  cases patchAll loaded request.patches with
  | error error => rfl
  | ok patched =>
      dsimp only [bind, Except.bind]
      cases patched.loadInputs request.inputs.flatten with
      | error error => rfl
      | ok program => cases request.options <;> rfl

theorem carry_out_prepares (journal : Journal) (world : World) (request : RunRequest)
    (text : String) (found : world.sourceText request.source = .ok text) :
    ∃ loaded, Exchange (world.past request.source) [] "" "" loaded ∧ ∀ stdin fuel,
      world.carryOut journal request stdin fuel =
        match request.prepare text with
        | .error error => (.error (.library error), loaded)
        | .ok (program, options) =>
            (runProgram fuel journal (request.settings stdin) program options :
              ExceptT Failure (StateM World) Unit).run.run loaded := by
  obtain ⟨loaded, silence, loading⟩ := load_found journal world request.source text found
  refine ⟨loaded, silence, ?_⟩
  intro stdin fuel
  unfold World.carryOut runCommand RunRequest.prepare
  cases parsed : Program.ofText text with
  | error error =>
      rw [parsed] at loading
      exact run_bind_error loading
  | ok program =>
      rw [parsed] at loading
      exact (run_bind_ok loading).trans (run_equipped request stdin program _ loaded)

/-! ## From the first pull to the last line -/

/-- The lines that show words of the memory. -/
def dumped (last : Execution) (addresses : List Nat) : String :=
  String.join (addresses.map fun (address : Nat) =>
    "[" ++ Text.decimal address ++ "] = " ++ Text.decimal (last.machine.memory.get address) ++ "\n")

/-- What is printed after the last pull. -/
def RunRequest.dumpText (request : RunRequest) (last : Execution) : Except Failure Unit → String
  | .ok () => dumped last request.dumps
  | .error _ => ""

/-- What goes to standard error after the last pull. -/
def RunRequest.traceText (request : RunRequest) (last : Execution) : String :=
  if request.trace then last.machine.traceText ++ "\n" else ""

theorem print_dumps_exchange (last : Execution) (addresses : List Nat) (world : World) :
    ∃ after, Exchange world [] (dumped last addresses) "" after ∧
      (printDumps last (addresses.map fun (address : Nat) => some (address : Int)) :
        ExceptT Failure (StateM World) Unit).run.run world = (.ok (), after) := by
  induction addresses generalizing world with
  | nil => exact ⟨world, .refl world, rfl⟩
  | cons address addresses ih =>
      let line := "[" ++ Text.decimal address ++ "] = " ++
        Text.decimal (last.machine.memory.get address) ++ "\n"
      obtain ⟨after, others, same⟩ := ih { world with output := world.output ++ line }
      have first : Exchange world [] line "" { world with output := world.output ++ line } :=
        ⟨.done _, rfl, String.append_empty.symm⟩
      refine ⟨after, by simpa [dumped, line] using first.trans others, ?_⟩
      have read : last.read address = .ok (last.machine.memory.get address) :=
        last.machine.memory.read_natural address
      refine Eq.trans (run_bind_ok (?_ : _ = (Except.ok PUnit.unit, _))) same
      simp only [read]
      rfl

theorem last_lines_exchange (journal : Journal) (request : RunRequest) (stdin : Bool)
    (ending : Except Failure Unit) (last : Execution) (world : World) :
    ∃ final, Exchange world [] (request.dumpText last ending) "" final ∧
      (do
        ofResult ending
        printDumps last (request.settings stdin).dumps
        (announce journal (.runFinished last.machine.registers.steps) : StateM World Unit) :
        ExceptT Failure (StateM World) Unit).run.run world = (ending, final) := by
  cases ending with
  | error failure => exact ⟨world, .refl world, rfl⟩
  | ok done =>
      obtain ⟨after, shown, dumping⟩ := print_dumps_exchange last request.dumps world
      have told := post_exchange journal
        (.ofNotice (.runFinished last.machine.registers.steps)) after
      refine ⟨_, by simpa [RunRequest.dumpText] using shown.trans told, ?_⟩
      rw [run_bind_ok (run_result _ _)]
      exact run_bind_ok dumping

theorem run_program_ends (journal : Journal) (request : RunRequest) (program : Program)
    (options : Options) (fresh : Execution) (started : program.start options = .ok fresh)
    (world : World) :
    ∃ begun, Exchange world [] "" "" begun ∧ ∀ stdin fuel ending last ended,
      begun.pullAll fuel journal stdin fuel fresh = ((ending, last), ended) →
      ∃ final, Exchange ended [] (request.dumpText last ending) (request.traceText last) final ∧
        (runProgram fuel journal (request.settings stdin) program options :
          ExceptT Failure (StateM World) Unit).run.run world = (ending, final) := by
  let begun := ((announce journal
    (.runStarted program.words.length program.inputs.length) : StateM World Unit).run world).2
  refine ⟨begun, post_exchange journal _ world, ?_⟩
  intro stdin fuel ending last ended pulled
  have pulling : (liftM (pullAll fuel journal (request.settings stdin).stdin fuel fresh :
      StateM World (Except Failure Unit × Execution)) :
      ExceptT Failure (StateM World) (Except Failure Unit × Execution)).run.run begun =
        (.ok (ending, last), ended) := by
    have same : (request.settings stdin).stdin = stdin := rfl
    rw [run_lift, same, ← World.pullAll, pulled]
  unfold runProgram
  rw [run_of_library, started]
  dsimp only
  rw [run_bind_ok (run_lift _), run_bind_ok pulling]
  have traced : (request.settings stdin).trace = request.trace := rfl
  unfold RunRequest.traceText
  dsimp only
  rw [traced]
  cases request.trace with
  | false => exact last_lines_exchange journal request stdin ending last ended
  | true =>
      obtain ⟨final, others, same⟩ := last_lines_exchange journal request stdin ending last
        { ended with complaints := ended.complaints ++ (last.machine.traceText ++ "\n") }
      have noted : Exchange ended [] "" (last.machine.traceText ++ "\n")
          { ended with complaints := ended.complaints ++ (last.machine.traceText ++ "\n") } :=
        ⟨.done _, String.append_empty.symm, rfl⟩
      refine ⟨final, by simpa using noted.trans others, ?_⟩
      exact same

end Intcode.Command
