import PortGraph.File.Access

/-!
# Disks

A disk is a folder with the files that lie in it and in the folders below it, as a value.  Paths
are resolved part by part, as a file system does it: two dots lead back to the enclosing folder,
but only from a folder that is there.  Outside of the disk nothing is found.
-/

set_option autoImplicit false

namespace PortGraph

/-- A file of a disk. -/
structure DiskFile where
  /-- The folders on the way to it, and its name. -/
  place : List String
  /-- Its bytes. -/
  content : ByteArray

/-- The files of a folder and of all folders below it. -/
structure Disk where
  /-- The files. -/
  files : List DiskFile := []

/-- What a path leads to. -/
inductive Location where
  /-- A folder of the disk. -/
  | folder (place : List String)
  /-- A file of the disk. -/
  | file (found : DiskFile)
  /-- Nothing yet, but a file may be written there. -/
  | vacant (place : List String)
  /-- A folder that encloses the disk. -/
  | outside

namespace Disk

/-- Whether there is a folder at a place: the disk itself, or one with a file in it. -/
def hasFolder (disk : Disk) (place : List String) : Bool :=
  place.isEmpty || disk.files.any fun f ↦
    place.isPrefixOf f.place && place.length < f.place.length

/-- What has a name in a folder. -/
def lookup (disk : Disk) (place : List String) : Location :=
  match disk.files.find? (fun f ↦ f.place = place) with
  | some f => .file f
  | none => if disk.hasFolder place then .folder place else .vacant place

/-- Follow the parts of a path. -/
def walk (disk : Disk) : List String → Location → Except FileError Location
  | [], location => .ok location
  | part :: parts, .folder place =>
    if part = "." then disk.walk parts (.folder place)
    else if part = ".." then
      disk.walk parts (if place.isEmpty then .outside else .folder place.dropLast)
    else if Path.maxPartSize < part.utf8ByteSize then .error .nameTooLong
    else disk.walk parts (disk.lookup (place ++ [part]))
  | part :: parts, .outside =>
    if part = "." || part = ".." then disk.walk parts .outside else .error .notFound
  | _ :: _, .file _ => .error .notDirectory
  | _ :: _, .vacant _ => .error .notFound

/-- The parts of a path that are followed.  A slash at the end asks for a folder. -/
def route (path : String) : List String :=
  let parts := (Path.split path.toList).map String.ofList
  parts.filter (· ≠ "") ++ (if parts.getLast? = some "" then ["."] else [])

/-- What a path leads to. -/
def locate (disk : Disk) (path : String) : Except FileError Location :=
  if !Path.isValid path then .error .invalidName
  else if path.isEmpty then .error .notFound
  else if Path.maxSize < path.utf8ByteSize then .error .nameTooLong
  else disk.walk (route path) (if Path.isAbsolute path then .outside else .folder [])

/-- Read the text of a file. -/
def read (disk : Disk) (path : String) : Except FileError String :=
  match disk.locate path with
  | .error e => .error e
  | .ok (.file f) =>
    match String.fromUTF8? f.content with
    | some s => .ok s
    | none => .error .notText
  | .ok (.vacant _) => .error .notFound
  | .ok (.folder _) | .ok .outside => .error .isDirectory

/-- Put a file on the disk, in place of the one that is there. -/
def put (disk : Disk) (place : List String) (content : ByteArray) : Disk :=
  if disk.files.any (fun f ↦ f.place = place) then
    ⟨disk.files.map fun f ↦ if f.place = place then ⟨place, content⟩ else f⟩
  else ⟨disk.files ++ [⟨place, content⟩]⟩

/-- Write a text to a file of a folder that is there.  A path with a slash at its end is no file's,
and is refused once the folder before it was found. -/
def write (disk : Disk) (path : String) (text : String) : Except FileError Unit × Disk :=
  let isFolderPath := path.toList.getLast? = some '/'
  match disk.locate (if isFolderPath then Path.withoutSlashes path else path) with
  | .error e => (.error e, disk)
  | .ok (.file f) =>
    if isFolderPath then (.error .isDirectory, disk)
    else (.ok (), disk.put f.place text.toUTF8)
  | .ok (.vacant place) =>
    if isFolderPath then (.error .isDirectory, disk)
    else (.ok (), disk.put place text.toUTF8)
  | .ok (.folder _) | .ok .outside => (.error .isDirectory, disk)

/-- Put a file on the disk, and the folders on the way to it. -/
def store (disk : Disk) (path : String) (content : ByteArray) : Disk :=
  disk.put ((route path).filter (· ≠ ".")) content

/-- Access to the files of a disk. -/
def access : FileAccess (StateM Disk) where
  read path := fun disk ↦ (disk.read path, disk)
  write path text := fun disk ↦ disk.write path text
  isPresent path := fun disk ↦
    (match disk.locate path with
      | .error _ | .ok (.vacant _) => false
      | .ok _ => true, disk)

end Disk

end PortGraph
