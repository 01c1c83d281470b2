import OpcodeAtlas.Disk.Fault

/-!
# OpcodeAtlas.Disk.Place — where paths lead

A path leads from a directory, or from the root of the system, through names to a place. An empty part
and the part `.` stay where they are; `..` goes up, also out of the directory, of whose surroundings
nothing more is known.
-/

namespace OpcodeAtlas

/-- Where a path begins. -/
inductive Origin where
  /-- So many directories above the one that paths are taken from. -/
  | above (levels : Nat)
  /-- The root of the system. -/
  | root
deriving DecidableEq, Repr

/-- A place in the file system. -/
structure Place where
  origin : Origin
  names : List String
deriving DecidableEq, Repr

namespace Place

/-- The directory that paths are taken from. -/
def here : Place := ⟨.above 0, []⟩

/-- The place that holds this one. The root holds itself. -/
def parent (p : Place) : Place :=
  match p.origin, p.names with
  | .above levels, [] => ⟨.above (levels + 1), []⟩
  | origin, names => ⟨origin, names.dropLast⟩

/-- The most bytes that a name may have. -/
def maxNameSize : Nat := 255

/-- The place that a part of a path leads to. -/
def enter (p : Place) (part : String) : Except DiskFault Place :=
  if part = "" ∨ part = "." then .ok p
  else if part = ".." then .ok p.parent
  else if maxNameSize < part.utf8ByteSize then .error .nameTooLong
  else .ok ⟨p.origin, p.names ++ [part]⟩

end Place

/-- A path, taken apart. -/
structure Route where
  start : Place
  /-- What stands between the slashes. -/
  parts : List String
deriving DecidableEq, Repr

namespace Route

/-- The most bytes that a path may have. -/
def maxPathSize : Nat := 4095

/-- The route that a path describes. -/
def ofPath (path : String) : Except DiskFault Route :=
  if path.contains '\x00' then .error .nulInPath
  else if maxPathSize < path.utf8ByteSize then .error .nameTooLong
  else .ok ⟨if path.startsWith "/" then ⟨.root, []⟩ else .here, path.splitOn "/"⟩

/-- The last name of a path. -/
def lastName? (path : String) : Option String :=
  ((path.splitOn "/").filter fun part => part ≠ "" && part ≠ ".").getLast?

end Route

end OpcodeAtlas
