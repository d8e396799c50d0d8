import Intcode.Machine

/-!
# Notices

A notice is something worth a line in a log: each has a part of the program it comes from, a level
and a text.
-/

set_option autoImplicit false

namespace Intcode

/-- How much a log message matters; greater is more. -/
abbrev Level := Int

namespace Level

def debug : Level := 10

def info : Level := 20

def warning : Level := 30

def error : Level := 40

def critical : Level := 50

def name (level : Level) : String :=
  if level = debug then "DEBUG"
  else if level = info then "INFO"
  else if level = warning then "WARNING"
  else if level = error then "ERROR"
  else if level = critical then "CRITICAL"
  else "Level " ++ Text.decimal level

end Level

inductive Notice where
  | programParsed (words : Nat)
  | runStarted (words inputs : Nat)
  | runFinished (steps : Nat)
  | bestSetting (phases : List Int)
  | traced (entry : TraceEntry)
  | halted (pointer steps : Nat)
  | starved (pointer : Nat)
  | faulted (trap : Trap)
  | amplifierHalted (index : Nat) (signal : Int)
  deriving DecidableEq, Repr

namespace Notice

/-- The part of the program a notice comes from. -/
def source : Notice → String
  | programParsed _ => "program"
  | runStarted _ _ | runFinished _ | bestSetting _ => "cli"
  | traced _ => "machine"
  | halted _ _ | starved _ | faulted _ => "channel"
  | amplifierHalted _ _ => "chain"

def level : Notice → Level
  | runStarted _ _ | runFinished _ | bestSetting _ | halted _ _ => Level.info
  | programParsed _ | traced _ | starved _ | faulted _ | amplifierHalted _ _ => Level.debug

def text : Notice → String
  | programParsed words => "parsed program of " ++ Text.decimal words ++ " words"
  | runStarted words inputs =>
      "running " ++ Text.decimal words ++ "-word program with " ++ Text.decimal inputs ++
        " input(s)"
  | runFinished steps => "executed " ++ Text.decimal steps ++ " steps"
  | bestSetting phases => "best phase setting " ++ Text.joined "," (phases.map Text.decimal)
  | traced entry => entry.text
  | halted pointer steps =>
      "halted at " ++ Text.decimal pointer ++ " after " ++ Text.decimal steps ++ " steps"
  | starved pointer => "input starved at " ++ Text.decimal pointer
  | faulted trap =>
      "machine faulted at " ++ Text.decimal trap.pointer ++ ": " ++ trap.fault.message
  | amplifierHalted index signal =>
      "amplifier " ++ Text.decimal index ++ " halted, final signal " ++ Text.decimal signal

end Notice

end Intcode
