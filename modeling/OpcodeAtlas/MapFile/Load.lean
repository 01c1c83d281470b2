import OpcodeAtlas.Disk.Directory
import OpcodeAtlas.MapFile.Basic
import OpcodeAtlas.Opcode.Output

/-!
# OpcodeAtlas.MapFile.Load — files that go in and out

* `Disk.loadMapFile` — a map file from disk;
* `Disk.loadImage` — an executable from disk;
* `Disk.saveOpcodes` — an opcode map to disk, one line for each opcode.
-/

namespace OpcodeAtlas.Disk

variable {m : Type → Type} [Monad m]

/-- The map file at a path. A directory can be opened and fails only when it is read. -/
def loadMapFile (disk : Disk m) (path : String) : m (Except MapFileError MapFile) := do
  match ← disk.read path with
  | .ok content => return MapFile.ofBytes content.toList
  | .error .isADirectory => return .error (.unread .isADirectory)
  | .error fault => return .error (.unopened fault)

/-- The executable at a path. -/
def loadImage (disk : Disk m) (path : String) : m (Except DiskFault Image) := do
  return (← disk.map path).map Image.mk

/-- Writes an opcode map to a path. -/
def saveOpcodes (disk : Disk m) (path : String) (opcodes : OpcodeMap) (sort : Bool) :
    m (Except DiskFault Unit) :=
  disk.write path (Text.utf8 (opcodes.fileText sort)).toArray

end OpcodeAtlas.Disk
