import OpcodeAtlas.Disk.Place

/-!
# OpcodeAtlas.Disk.Directory — files to work on

A `Disk` is what a command needs of a file system. A `Directory` holds files in memory and answers as a
file system would in which that directory holds nothing else, and the rest of the system only what every
system has.

* `Directory.read`, `Directory.map`, `Directory.write` — the content of a file, as it is read and as it
  is mapped, and a new content;
* `Directory.disk` — a directory as a disk.
-/

namespace OpcodeAtlas

/-- Reading, mapping and writing whole files. -/
structure Disk (m : Type → Type) where
  read : String → m (Except DiskFault (Array UInt8))
  map : String → m (Except DiskFault (Array UInt8))
  write : String → Array UInt8 → m (Except DiskFault Unit)

/-- Files by their place. -/
structure Directory where
  files : List (Place × Array UInt8)

/-- What is found at a place. -/
inductive Finding where
  | nothing
  | file (content : Array UInt8)
  | folder
  /-- The device that holds nothing and takes everything. -/
  | sink
  /-- A device of endless zeros, with or without room for what is written. -/
  | zeros (hasRoom : Bool)
deriving DecidableEq

namespace Directory

/-- The files of a directory by their path in it. -/
def ofList (files : List (String × Array UInt8)) : Directory :=
  ⟨files.map fun (path, content) => (⟨.above 0, path.splitOn "/"⟩, content)⟩

/-- The directories that stand at the root of every system. -/
def systemFolders : List String :=
  ["bin", "boot", "dev", "etc", "home", "lib", "media", "mnt", "opt", "proc", "root", "run", "sbin",
    "srv", "sys", "tmp", "usr", "var"]

/-- What is found at a place. -/
def find (d : Directory) (p : Place) : Finding :=
  let leadsOn (file : Place × Array UInt8) : Bool :=
    file.1.origin = p.origin && p.names.length < file.1.names.length &&
      p.names.isPrefixOf file.1.names
  match d.files.lookup p with
  | some content => .file content
  | none =>
    if p.names.isEmpty || d.files.any leadsOn then .folder
    else match p.origin, p.names with
      | .root, [name] => if systemFolders.contains name then .folder else .nothing
      | .root, ["dev", "null"] => .sink
      | .root, ["dev", "zero"] => .zeros true
      | .root, ["dev", "full"] => .zeros false
      | _, _ => .nothing

/-- Checks that a place can be gone on from. -/
def checkFolder (d : Directory) (p : Place) : Except DiskFault Unit :=
  match d.find p with
  | .folder => .ok ()
  | .nothing => .error .notFound
  | _ => .error .notADirectory

/-- The place that parts lead to from a place. -/
def follow (d : Directory) (p : Place) : List String → Except DiskFault Place
  | [] => .ok p
  | part :: rest => do
    d.checkFolder p
    d.follow (← p.enter part) rest

/-- What is found at the end of a path. -/
def open? (d : Directory) (path : String) : Except DiskFault Finding := do
  let route ← Route.ofPath path
  return d.find (← d.follow route.start route.parts)

/-- The content of a file. Of endless zeros one is given: no format goes on behind it. -/
def read (d : Directory) (path : String) : Except DiskFault (Array UInt8) := do
  match ← d.open? path with
  | .file content => return content
  | .sink => return #[]
  | .folder => throw .isADirectory
  | .zeros _ => return #[0]
  | .nothing => throw .notFound

/-- The content of a file that is mapped, which some devices cannot be. -/
def map (d : Directory) (path : String) : Except DiskFault (Array UInt8) := do
  match ← d.open? path with
  | .file content => return content
  | .zeros true => return #[]
  | .zeros false | .sink | .folder => throw .noDevice
  | .nothing => throw .notFound

/-- The directory with a new content at a place. -/
def put (d : Directory) (p : Place) (content : Array UInt8) : Directory :=
  ⟨(p, content) :: d.files.filter (·.1 ≠ p)⟩

/-- The directory with a new content for a file. A path that ends with a slash or with dots is that of a
directory, whether there is one or not. -/
def write (d : Directory) (path : String) (content : Array UInt8) : Except DiskFault Directory := do
  let route ← Route.ofPath path
  let parts := (route.parts.reverse.dropWhile (· = "")).reverse
  match parts.getLast? with
  | none => throw .isADirectory
  | some last =>
    let folder ← d.follow route.start parts.dropLast
    d.checkFolder folder
    if last = "." ∨ last = ".." ∨ parts.length < route.parts.length then throw .isADirectory
    let place ← folder.enter last
    match d.find place with
    | .folder => throw .isADirectory
    | .zeros false => throw .noSpace
    | .zeros true | .sink => return d
    | .file _ | .nothing => return d.put place content

/-- A directory as a disk. -/
def disk : Disk (StateM Directory) where
  read path := do return (← get).read path
  map path := do return (← get).map path
  write path content := do
    match (← get).write path content with
    | .ok d => set d; return .ok ()
    | .error fault => return .error fault

end Directory

end OpcodeAtlas
