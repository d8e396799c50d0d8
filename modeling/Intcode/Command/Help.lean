/-!
# Help texts

The usage and the details of each command. Usage alone stands before messages about misuse; help is
both together.
-/

set_option autoImplicit false

namespace Intcode.Command.Help

/-- Lines of text, each ended by a line feed. -/
def block (lines : List String) : String := String.join (lines.map (· ++ "\n"))

def programName : String := "icvm"

def version : String := "0.3.0"

def mainUsage : String := block
  ["usage: icvm [-h] [--verbose] [--log-file LOG_FILE] [--version]",
    "            \x7brun,disasm,amp\x7d ..."]

def mainDetails : String := block
  ["",
    "Run, inspect and chain Intcode programs",
    "",
    "positional arguments:",
    "  \x7brun,disasm,amp\x7d",
    "    run                Run a program and print its outputs",
    "    disasm             Disassemble a program",
    "    amp                Find the best amplifier phase setting",
    "",
    "options:",
    "  -h, --help           show this help message and exit",
    "  --verbose, -v        Increase verbosity (-v info, -vv debug and tracebacks)",
    "  --log-file LOG_FILE  Write a DEBUG log to this file",
    "  --version            show program's version number and exit"]

def runUsage : String := block
  ["usage: icvm run [-h] [--input N[,N...]] [--patch ADDR=VALUE] [--stdin]",
    "                [--max-steps MAX_STEPS] [--trace] [--allow-unused-inputs]",
    "                [--dump ADDR]",
    "                program"]

def runDetails : String := block
  ["",
    "positional arguments:",
    "  program               Program file ('-' for stdin)",
    "",
    "options:",
    "  -h, --help            show this help message and exit",
    "  --input N[,N...], -i N[,N...]",
    "                        Pre-loaded input words (repeatable)",
    "  --patch ADDR=VALUE, -p ADDR=VALUE",
    "                        Patch the image before running (repeatable)",
    "  --stdin               Read more input from stdin whenever the program",
    "                        starves",
    "  --max-steps MAX_STEPS",
    "                        Abort after this many instructions",
    "  --trace               Print an instruction trace to stderr",
    "  --allow-unused-inputs",
    "                        Do not fail when pre-loaded inputs are left over",
    "  --dump ADDR           Print the word at ADDR after the run (repeatable)"]

def disasmUsage : String := block ["usage: icvm disasm [-h] program"]

def disasmDetails : String := block
  ["",
    "positional arguments:",
    "  program     Program file ('-' for stdin)",
    "",
    "options:",
    "  -h, --help  show this help message and exit"]

def ampUsage : String := block ["usage: icvm amp [-h] --phases PHASES [--feedback] program"]

def ampDetails : String := block
  ["",
    "positional arguments:",
    "  program          Program file ('-' for stdin)",
    "",
    "options:",
    "  -h, --help       show this help message and exit",
    "  --phases PHASES  Phase values to permute, e.g. 0,1,2,3,4",
    "  --feedback       Wire the last amplifier back into the first"]

end Intcode.Command.Help
