import OpcodeAtlas.Command.Run

/-!
# OpcodeAtlas.Main — the program

Runs the command on the files of the machine and shows its report.
-/

namespace OpcodeAtlas.Program

/-- The answer of the operating system behind a failed operation. -/
def faultOf : IO.Error → DiskFault
  | .noFileOrDirectory .. => .notFound
  | .inappropriateType _ 20 _ => .notADirectory
  | .inappropriateType _ 21 _ => .isADirectory
  | .invalidArgument _ 36 _ => .nameTooLong
  | .resourceExhausted _ 28 _ => .noSpace
  | other => .other (toString other)

/-- The content of a file. -/
def read (path : String) : IO (Except DiskFault (Array UInt8)) := do
  if path.contains '\x00' then return .error .nulInPath
  try return .ok (← IO.FS.readBinFile path).data
  catch fault => return .error (faultOf fault)

/-- The files of the machine. -/
def disk : Disk IO where
  read := read
  map path := do
    match ← read path with
    | .error .isADirectory => return .error .noDevice
    | answer => return answer
  write path content := do
    if path.contains '\x00' then return .error .nulInPath
    try return .ok (← IO.FS.writeBinFile path ⟨content⟩)
    catch fault => return .error (faultOf fault)

/-- Seconds with two decimals. -/
def seconds (milliseconds : Nat) : String :=
  let hundredths := (milliseconds + 5) / 10
  toString (hundredths / 100) ++ "." ++ Text.padLeft 2 '0' (toString (hundredths % 100))

end OpcodeAtlas.Program

open OpcodeAtlas in
/-- Runs the command with the words of its line. -/
def main (words : List String) : IO UInt32 := do
  let start ← IO.monoMsNow
  let forced ← IO.getEnv "CLICOLOR_FORCE"
  let around : Surroundings IO :=
    { colored := (forced.getD "0") ≠ "0"
      elapsed := do return Program.seconds ((← IO.monoMsNow) - start) }
  let report ← Command.run Program.disk around words
  IO.print report.out
  (← IO.getStderr).putStr report.err
  return report.exitCode.toUInt32
