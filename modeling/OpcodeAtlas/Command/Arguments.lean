/-!
# OpcodeAtlas.Command.Arguments — the command line

The command takes two paths and, behind them, whether to dump everything. Options may stand anywhere:
`--name`, `--name value`, `--name=value`, `-n`, `-n value`, `-nvalue`, `-n=value`, and several short
switches in one word. Behind `--` nothing is an option.

A value is looked at only when the next parameter begins or the line ends; until then it is pending.

* `Parameter` — what can be given, `UsageFault` — what ends the reading;
* `Arguments.parse` — the arguments of a line.
-/

namespace OpcodeAtlas

/-- What the command was asked to do. -/
structure Arguments where
  mapFile : String
  executable : String
  dumpAll : Bool
  output : Option String
  keepOrder : Bool
  strict : Bool
  logLevel : String
  quiet : Bool
  noColor : Bool
deriving DecidableEq, Repr

/-- Why a command line makes no arguments. -/
inductive UsageFault where
  | helpWanted | versionWanted
  /-- A value is missing or not allowed. -/
  | invalidValue
  | unknownArgument
  /-- A parameter is given twice. -/
  | repeated
  /-- A switch is given a value. -/
  | unneededValue
  | missingRequired
deriving DecidableEq, Repr

/-- The exit code that goes with a fault. -/
def UsageFault.exitCode : UsageFault → Nat
  | .helpWanted | .versionWanted => 0
  | _ => 2

/-- What can be given on the command line. -/
inductive Parameter where
  | mapFile | executable | dumpAll | output | keepOrder | strict | logLevel | quiet | noColor
  | help | version
deriving DecidableEq, Repr

namespace Parameter

/-- Whether the parameter is a switch, which takes no value. -/
def isSwitch : Parameter → Bool
  | .keepOrder | .strict | .quiet | .noColor | .help | .version => true
  | _ => false

/-- The option with a long name. -/
def ofLong? : String → Option Parameter
  | "output" => some .output
  | "keep-order" => some .keepOrder
  | "strict" => some .strict
  | "log-level" => some .logLevel
  | "quiet" => some .quiet
  | "no-color" => some .noColor
  | "help" => some .help
  | "version" => some .version
  | _ => none

/-- The option with a short name. -/
def ofShort? : Char → Option Parameter
  | 'o' => some .output
  | 'l' => some .logLevel
  | 'q' => some .quiet
  | 'h' => some .help
  | 'V' => some .version
  | _ => none

/-- The parameter with a place among the words that are no options. -/
def ofPlace? : Nat → Option Parameter
  | 0 => some .mapFile
  | 1 => some .executable
  | 2 => some .dumpAll
  | _ => none

/-- Whether a value may be given to the parameter. -/
def accepts : Parameter → String → Bool
  | .mapFile, value | .executable, value | .output, value => value ≠ ""
  | .dumpAll, value => value = "true" || value = "false"
  | _, _ => true

end Parameter

namespace Arguments

/-- How far the reading of a command line has come. -/
structure Progress where
  /-- The parameters given so far, with their values. -/
  given : List (Parameter × String)
  /-- A parameter whose value has not been looked at, or has not come yet. -/
  pending : Option (Parameter × Option String)
  /-- How many words were no options. -/
  place : Nat
deriving DecidableEq, Repr

namespace Progress

/-- Nothing was given. -/
def start : Progress := ⟨[], none, 0⟩

/-- Gives a value to a parameter. Switches are given the empty text. -/
def give (p : Progress) (parameter : Parameter) (value : String) : Except UsageFault Progress :=
  if (p.given.lookup parameter).isSome then .error .repeated
  else if !parameter.accepts value then .error .invalidValue
  else .ok { p with given := (parameter, value) :: p.given }

/-- Looks at the pending value. -/
def settle (p : Progress) : Except UsageFault Progress :=
  match p.pending with
  | none => .ok p
  | some (_, none) => .error .invalidValue
  | some (parameter, some value) => { p with pending := none }.give parameter value

/-- Turns a switch on. -/
def switchOn (p : Progress) (parameter : Parameter) : Except UsageFault Progress := do
  let p ← p.settle
  match parameter with
  | .help => throw .helpWanted
  | .version => throw .versionWanted
  | _ => p.give parameter ""

/-- Begins an option that takes a value, which may come along with it. -/
def beginOption (p : Progress) (parameter : Parameter) (value : Option String) :
    Except UsageFault Progress := do
  let p ← p.settle
  match value with
  | some value => p.give parameter value
  | none => return { p with pending := some (parameter, none) }

/-- Takes a word that starts with two dashes. -/
def takeLong (p : Progress) (name : String) (value : Option String) : Except UsageFault Progress :=
  match Parameter.ofLong? name with
  | none => .error .unknownArgument
  | some parameter =>
    if !parameter.isSwitch then p.beginOption parameter value
    else if value.isSome then .error .unneededValue
    else p.switchOn parameter

/-- The value that stands in one word with a short option. -/
def attached : List Char → Option String
  | [] => none
  | '=' :: rest => some (String.ofList rest)
  | rest => some (String.ofList rest)

/-- Takes the letters of a word that starts with one dash. -/
def takeShort (p : Progress) : List Char → Except UsageFault Progress
  | [] => .ok p
  | c :: rest =>
    match Parameter.ofShort? c with
    | none => .error .unknownArgument
    | some parameter =>
      if parameter.isSwitch then do (← p.switchOn parameter).takeShort rest
      else p.beginOption parameter (attached rest)

/-- Takes a word that is no option. -/
def takePlain (p : Progress) (word : String) : Except UsageFault Progress :=
  match Parameter.ofPlace? p.place with
  | none => .error .unknownArgument
  | some parameter => do
    let p ← p.settle
    return { p with pending := some (parameter, some word), place := p.place + 1 }

/-- Takes a word in front of `--`. -/
def takeWord (p : Progress) (word : String) : Except UsageFault Progress :=
  match word.toList with
  | '-' :: '-' :: name =>
    let (name, rest) := name.span (· ≠ '=')
    p.takeLong (String.ofList name) (rest.tail?.map String.ofList)
  | '-' :: letter :: letters => p.takeShort (letter :: letters)
  | _ =>
    match p.pending with
    | some (parameter, none) => .ok { p with pending := some (parameter, some word) }
    | _ => p.takePlain word

/-- Takes all words. -/
def takeAll (p : Progress) : List String → Except UsageFault Progress
  | [] => p.settle
  -- Whatever follows is no option, and no value of a pending one either.
  | "--" :: words => do (← words.foldlM takePlain p).settle
  | word :: words => do (← p.takeWord word).takeAll words

/-- The arguments that were given; two paths are required. -/
def finish (p : Progress) : Except UsageFault Arguments :=
  match p.given.lookup .mapFile, p.given.lookup .executable with
  | some mapFile, some executable =>
    .ok
      { mapFile, executable
        dumpAll := p.given.lookup .dumpAll == some "true"
        output := p.given.lookup .output
        keepOrder := (p.given.lookup .keepOrder).isSome
        strict := (p.given.lookup .strict).isSome
        logLevel := (p.given.lookup .logLevel).getD "info"
        quiet := (p.given.lookup .quiet).isSome
        noColor := (p.given.lookup .noColor).isSome }
  | _, _ => .error .missingRequired

end Progress

/-- The arguments of a command line, the name of the command left out. -/
def parse (words : List String) : Except UsageFault Arguments := do
  (← Progress.start.takeAll words).finish

end Arguments

end OpcodeAtlas
