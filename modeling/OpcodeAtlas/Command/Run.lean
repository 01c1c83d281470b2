import OpcodeAtlas.Command.Arguments
import OpcodeAtlas.Command.Console
import OpcodeAtlas.Log.Trace
import OpcodeAtlas.MapFile.Load

/-!
# OpcodeAtlas.Command.Run — the command

The command reads a map file and an executable, extracts the opcode map, and saves it or shows it as a
table. A file that cannot be used ends it with exit code 1; a fault of extraction is only logged.

* `Report` — what the command leaves behind;
* `Command.execute` — runs the command with its arguments;
* `Command.run` — runs the command with the words of its line.
-/

namespace OpcodeAtlas

/-- The exit code, and what was written to the two streams. -/
structure Report where
  exitCode : Nat
  out : String
  err : String
deriving DecidableEq, Repr

/-- The surroundings of a run that are no files. -/
structure Surroundings (m : Type → Type) where
  /-- Whether colours are asked for even though nobody may be looking. -/
  colored : Bool
  /-- The time since the start, in seconds. -/
  elapsed : m String

namespace Command

/-- What the version option shows. -/
def versionText : String := "opcode-extractor 1.0.0\n"

/-- How the command is called. -/
def usageText : String :=
  "Usage: opcode-extractor [OPTIONS] <OPCODE_MAP_FILE> <GAME_EXECUTABLE> [DUMP_ALL_OPCODES]\n"

/-- What the help option shows. -/
def helpText : String :=
  "Map opcodes as defined in an opcode map file for a game executable\n\n" ++ usageText ++
    "\nArguments:\n" ++
    "  <OPCODE_MAP_FILE>   The opcode map to use\n" ++
    "  <GAME_EXECUTABLE>   The game executable to map\n" ++
    "  [DUMP_ALL_OPCODES]  Dump every decoded case, not only the mapped ones. Unmapped slots are " ++
    "written as Index_<slot>; unrecognised handlers as Index_unknown [default: false] " ++
    "[possible values: true, false]\n" ++
    "\nOptions:\n" ++
    "  -o, --output <OUTPUT>        Write the opcode map as JSON to this file\n" ++
    "      --keep-order             Keep jump-table order in the JSON output instead of sorting " ++
    "by opcode\n" ++
    "      --strict                 Abort when the switch count differs from the expected count\n" ++
    "  -l, --log-level <LOG_LEVEL>  [default: info]\n" ++
    "  -q, --quiet                  \n" ++
    "      --no-color               \n" ++
    "  -h, --help                   Print help\n" ++
    "  -V, --version                Print version\n"

/-- The level that the log goes down to; a word that is no level counts as `info`. -/
def leastLevel (word : String) : Option LogLevel :=
  match word.toLower with
  | "off" => none
  | "error" => some .error
  | "warn" => some .warn
  | "debug" | "trace" => some .debug
  | _ => some .info

/-! ## What is shown -/

/-- A line of the table. -/
def tableLine (colored : Bool) (opcode : Int) (name : String) : String :=
  let decimal := Text.padLeft 6 ' ' (toString opcode)
  let hex := Text.padLeft 8 ' ' ("0x" ++ Text.upperHex (Text.word64 opcode))
  "  " ++ decimal ++ " " ++ Console.paint colored "33" hex ++ "  " ++
    Console.paint colored "32" name ++ "\n"

/-- The table of an opcode map. -/
def table (colored : Bool) (opcodes : OpcodeMap) : String :=
  if opcodes.isEmpty then Console.paint colored "33" "[!]" ++ " No opcodes mapped\n"
  else
    Console.paint colored "1;36" "Opcodes" ++ "\n" ++
      Console.paint colored "36" (String.ofList (List.replicate 40 '-')) ++ "\n" ++
      String.join (opcodes.sorted.map fun (opcode, name) => tableLine colored opcode name)

/-- A fault with what lies behind it. -/
def chain (fault : String) (cause? : Option String) : String :=
  match cause? with
  | some cause => s!"{fault}: {cause}"
  | none => fault

/-- The line that ends a failed run. -/
def failureLine (colored : Bool) (doing : String) (fault : String) : String :=
  Console.paint colored "31" "[!]" ++ s!" {doing}: {fault}\n"

/-! ## The run -/

variable {m : Type → Type} [Monad m]

/-- Runs the command. -/
def execute (disk : Disk m) (around : Surroundings m) (a : Arguments) : m Report := do
  let colored := around.colored && !a.noColor
  let unlessQuiet (line : String) := if a.quiet then "" else line
  let log := Console.logLines around.colored (leastLevel a.logLevel)
  match ← disk.loadMapFile a.mapFile with
  | .error fault =>
    let words := chain fault.message fault.cause?
    return ⟨1, "", failureLine colored s!"Failed to load opcode map {a.mapFile}" words⟩
  | .ok file =>
    let loading :=
      unlessQuiet (Console.paint colored "34" "[*]" ++ s!" Loading binary: {a.executable}\n")
    match ← disk.loadImage a.executable with
    | .error fault =>
      let words := chain s!"IO error: {fault.message}" (some fault.message)
      return ⟨1, loading, failureLine colored s!"Failed to load binary {a.executable}" words⟩
    | .ok image =>
      let x : Extraction := ⟨a.dumpAll, if a.strict then .strict else .lenient⟩
      let opcodes := x.runOrEmpty file image
      let logged := log (.imageLoaded image.size a.executable :: x.trace file image)
      let done := Console.paint colored "32" "[+]"
      let summary (elapsed : String) :=
        unlessQuiet s!"{done} Mapped {opcodes.size} opcodes in {elapsed}s\n"
      match a.output with
      | none =>
        let shown := unlessQuiet (table colored opcodes)
        return ⟨0, loading ++ shown ++ summary (← around.elapsed), logged⟩
      | some path =>
        match ← disk.saveOpcodes path opcodes !a.keepOrder with
        | .error fault =>
          let words := chain s!"IO error: {fault.message}" (some fault.message)
          return ⟨1, loading,
            logged ++ failureLine colored s!"Failed to save results to {path}" words⟩
        | .ok () =>
          let saved := unlessQuiet s!"{done} Results saved to: {path}\n"
          return ⟨0, loading ++ saved ++ summary (← around.elapsed), logged⟩

/-- Runs the command with the words of its line. -/
def run (disk : Disk m) (around : Surroundings m) (words : List String) : m Report := do
  match Arguments.parse words with
  | .ok a => execute disk around a
  | .error .versionWanted => return ⟨0, versionText, ""⟩
  | .error .helpWanted => return ⟨0, helpText, ""⟩
  | .error fault => return ⟨fault.exitCode, "", usageText⟩

end Command

end OpcodeAtlas
