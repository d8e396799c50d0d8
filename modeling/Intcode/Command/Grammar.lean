import Intcode.Command.Value

/-!
# Command-line grammar

A grammar has switches, some of which take a value, and one operand: a single text, or a command
name that takes all that follows it.

An argument that starts with a dash is a switch, unless it is a lone dash, looks like a negative
number or holds a space. Long switches may be shortened to any beginning that fits only one of them;
one-letter switches may be run together, and a value may follow its letter at once or its switch
after an equals sign. A double dash ends the switches; where a value is expected in the same
argument, it stands for no value at all. Switches that are not known are set aside and reported by
the caller.
-/

set_option autoImplicit false

namespace Intcode.Command

/-- Why reading a command line ends early. -/
inductive Halt where
  | help (text : String)
  | version
  | misuse (text : String)
  deriving DecidableEq, Repr

variable {Settings : Type}

/-- What a switch does. -/
inductive Action (Settings : Type) where
  | help
  | version
  | flag (apply : Settings → Settings)
  /-- The value may be missing. -/
  | value (apply : Settings → Option String → Except ValueFault Settings)

def Action.takesValue : Action Settings → Bool
  | .value _ => true
  | .help | .version | .flag _ => false

structure Switch (Settings : Type) where
  names : List String
  action : Action Settings

/-- How messages refer to a switch. -/
def Switch.label (switch : Switch Settings) : String := Text.joined "/" switch.names

inductive Operand (Settings : Type) where
  | single (accept : Settings → String → Settings)
  /-- A command name and the arguments after it; what it does not know is given back. -/
  | command (accept : Settings → String → List String → Except Halt (Settings × List String))

structure Grammar (Settings : Type) where
  name : String
  usage : String
  details : String
  switches : List (Switch Settings)
  operand : Operand Settings
  /-- Names of what must be given and is not. -/
  missing : Settings → List String

/-- A switch as it was found: by which of its names, and with which text in the same argument. -/
structure Found (Settings : Type) where
  switch : Switch Settings
  name : String
  attached : Option (List Char)

inductive Token (Settings : Type) where
  | dashes
  | operand (text : String)
  | switch (text : String) (found : Option (Found Settings))

def Token.text : Token Settings → String
  | .dashes => "--"
  | .operand text | .switch text _ => text

/-- One use of a switch, with its value if it has one. -/
structure Use (Settings : Type) where
  switch : Switch Settings
  value : Option String := none

/-- The uses of switches in one argument, in order. -/
structure Uses (Settings : Type) where
  uses : List (Use Settings)
  /-- Whether the last switch took the argument behind it as its value. -/
  tookNext : Bool := false

/-- What has been read so far. -/
structure Progress (Settings : Type) where
  settings : Settings
  /-- Whether the operand has been read. -/
  taken : Bool := false
  /-- Arguments that are not known. -/
  extras : List String := []

def isDigit (symbol : Char) : Bool := (Text.digitValue? symbol).isSome

/-- A minus sign and digits, with a point among or before them perhaps; one line feed may follow. -/
def isNegativeNumber (text : List Char) : Bool :=
  let body := if text.getLast? = some '\n' then text.dropLast else text
  match body with
  | '-' :: number =>
      match number.span isDigit with
      | (whole, []) => !whole.isEmpty
      | (_, '.' :: fraction) => !fraction.isEmpty && fraction.all isDigit
      | _ => false
  | _ => false

namespace Grammar

variable (grammar : Grammar Settings)

def misuse (message : String) : Halt :=
  .misuse (grammar.usage ++ grammar.name ++ ": error: " ++ message ++ "\n")

def switchMisuse (switch : Switch Settings) (message : String) : Halt :=
  grammar.misuse ("argument " ++ switch.label ++ ": " ++ message)

/-- All names with their switches, in order. -/
def named : List (String × Switch Settings) :=
  grammar.switches.flatMap fun switch => switch.names.map fun name => (name, switch)

def find? (name : String) : Option (Switch Settings) := grammar.named.lookup name

/-- The switches a text may mean that is no name of one: long switches that it begins, and the
one-letter switch that it starts with. -/
def candidates (text : List Char) : List (Found Settings) :=
  if text.take 2 = ['-', '-'] then
    let (start, attached) : List Char × Option (List Char) :=
      match splitEquals text with
      | some (before, after) => (before, some after)
      | none => (text, none)
    grammar.named.filterMap fun (name, switch) =>
      if start.isPrefixOf name.toList then some ⟨switch, name, attached⟩ else none
  else
    grammar.named.filterMap fun (name, switch) =>
      if name.toList = text.take 2 then some ⟨switch, name, some (text.drop 2)⟩
      else if text.isPrefixOf name.toList then some ⟨switch, name, none⟩
      else none

/-- The switch a text names before its equals sign. -/
def attachedSwitch? (text : List Char) : Option (Found Settings) := do
  let (before, after) ← splitEquals text
  let switch ← grammar.find? (String.ofList before)
  return ⟨switch, String.ofList before, some after⟩

def classify (text : String) : Except Halt (Token Settings) :=
  let symbols := text.toList
  if symbols.head? ≠ some '-' then .ok (.operand text)
  else
    match grammar.find? text with
    | some switch => .ok (.switch text (some ⟨switch, text, none⟩))
    | none =>
        if symbols = ['-'] then .ok (.operand text)
        else
          match grammar.attachedSwitch? symbols with
          | some found => .ok (.switch text (some found))
          | none =>
              match grammar.candidates symbols with
              | [found] => .ok (.switch text (some found))
              | [] =>
                  if isNegativeNumber symbols || symbols.contains ' ' then .ok (.operand text)
                  else .ok (.switch text none)
              | several =>
                  .error (grammar.misuse
                    ("ambiguous option: " ++ text ++ " could match " ++
                      Text.joined ", " (several.map (·.name))))

/-- The tokens of a command line; behind a double dash all are operands. -/
def tokens : List String → Except Halt (List (Token Settings))
  | [] => .ok []
  | text :: texts =>
      if text = "--" then .ok (.dashes :: texts.map .operand)
      else
        match grammar.classify text with
        | .error halt => .error halt
        | .ok token =>
            match tokens texts with
            | .error halt => .error halt
            | .ok rest => .ok (token :: rest)

/-- A switch without attached text: it takes the operand behind it if it needs a value. -/
def plainUse (next : Option String) (switch : Switch Settings) :
    Except Halt (Uses Settings) :=
  if switch.action.takesValue then
    match next with
    | some value => .ok { uses := [⟨switch, some value⟩], tookNext := true }
    | none => .error (grammar.switchMisuse switch "expected one argument")
  else .ok { uses := [{ switch }] }

/-- What is said about attached text that a switch cannot take. -/
def ignored (switch : Switch Settings) (text : List Char) : Halt :=
  grammar.switchMisuse switch
    ("ignored explicit argument " ++ Text.quoted (String.ofList text))

/-- The value that text in the same argument gives a switch. -/
def attachedValue (text : List Char) : Option String :=
  if text = ['-', '-'] then none else some (String.ofList text)

/-- A switch with text in the same argument, which is its value or, behind a one-letter switch
without one, more one-letter switches. -/
def attachedUses (next : Option String) (switch : Switch Settings) (isShort : Bool) :
    (text : List Char) → Except Halt (Uses Settings)
  | [] =>
      if switch.action.takesValue then .ok { uses := [⟨switch, some ""⟩] }
      else .error (grammar.ignored switch [])
  | letter :: letters =>
      if switch.action.takesValue then
        .ok { uses := [⟨switch, attachedValue (letter :: letters)⟩] }
      else
        match isShort, grammar.find? (String.ofList ['-', letter]) with
        | true, some other =>
            let following :=
              if letters.isEmpty then grammar.plainUse next other
              else attachedUses next other true letters
            match following with
            | .error halt => .error halt
            | .ok rest => .ok { rest with uses := { switch } :: rest.uses }
        | _, _ => .error (grammar.ignored switch (letter :: letters))

def uses (next : Option String) (found : Found Settings) : Except Halt (Uses Settings) :=
  match found.attached with
  | none => grammar.plainUse next found.switch
  | some text =>
      grammar.attachedUses next found.switch (found.name.toList.take 2 ≠ ['-', '-']) text

/-- Carries out one use of a switch. -/
def act (settings : Settings) (use : Use Settings) : Except Halt Settings :=
  match use.switch.action with
  | .help => .error (.help (grammar.usage ++ grammar.details))
  | .version => .error .version
  | .flag apply => .ok (apply settings)
  | .value apply =>
      match apply settings use.value with
      | .ok settings => .ok settings
      | .error fault => .error (grammar.switchMisuse use.switch fault.message)

/-- Works through tokens in order. -/
def consume (progress : Progress Settings) (tokens : List (Token Settings)) :
    Except Halt (Progress Settings) :=
  match tokens with
  | [] => .ok progress
  | .switch text none :: rest =>
      consume { progress with extras := progress.extras ++ [text] } rest
  | .switch _ (some found) :: rest =>
      let next :=
        match rest with
        | .operand text :: _ => some text
        | _ => none
      match grammar.uses next found with
      | .error halt => .error halt
      | .ok found =>
          match found.uses.foldlM grammar.act progress.settings with
          | .error halt => .error halt
          | .ok settings =>
              consume { progress with settings } (rest.drop (if found.tookNext then 1 else 0))
  | .operand text :: rest =>
      if progress.taken then
        consume { progress with extras := progress.extras ++ [text] } rest
      else
        match grammar.operand with
        | .single accept =>
            let dashesFollow :=
              match rest with
              | .dashes :: _ => true
              | _ => false
            consume
              { progress with settings := accept progress.settings text, taken := true }
              (rest.drop (if dashesFollow then 1 else 0))
        | .command accept =>
            match accept progress.settings text (rest.map Token.text) with
            | .error halt => .error halt
            | .ok (settings, extras) =>
                .ok { settings, taken := true, extras := progress.extras ++ extras }
  | .dashes :: .operand text :: others =>
      if progress.taken then
        consume { progress with extras := progress.extras ++ ["--"] } (.operand text :: others)
      else
        match grammar.operand with
        | .single accept =>
            consume
              { progress with settings := accept progress.settings text, taken := true } others
        | .command accept =>
            match accept progress.settings "--" (text :: others.map Token.text) with
            | .error halt => .error halt
            | .ok (settings, extras) =>
                .ok { settings, taken := true, extras := progress.extras ++ extras }
  | .dashes :: rest => consume { progress with extras := progress.extras ++ ["--"] } rest
termination_by tokens.length
decreasing_by all_goals simp only [List.length_cons, List.length_drop]; omega

/-- Reads a command line: the settings and the arguments that are not known. Missing arguments are
reported here. -/
def read (settings : Settings) (arguments : List String) :
    Except Halt (Settings × List String) := do
  let tokens ← grammar.tokens arguments
  let progress ← grammar.consume { settings } tokens
  match grammar.missing progress.settings with
  | [] => return (progress.settings, progress.extras)
  | missing =>
      throw (grammar.misuse
        ("the following arguments are required: " ++ Text.joined ", " missing))

end Grammar

end Intcode.Command
