import WeightedArgumentation.File.Entry
import WeightedArgumentation.File.Path
import WeightedArgumentation.Table

/-!
# Directories

A `Directory` is a working directory that is held as a value: its text files, the
names that lead to it from the root, and what stands elsewhere.  A path is followed
name by name, from the root or from the working directory.
-/

namespace WeightedArgumentation

/-- A working directory.  Its own files go by their names, and everything else that
is known to exist goes by its path from the root. -/
structure Directory where
  files : Table String
  location : List String
  elsewhere : Table Entry
  deriving DecidableEq

/-- What a written text changes: the files, or the streams on which it appears. -/
structure Written where
  directory : Directory
  output : String
  errors : String
  deriving DecidableEq

namespace Directory

/-- The text of a file of the working directory at a place, which is given by the
names that lead to it from the root. -/
def own? (directory : Directory) (place : List String) : Option String :=
  if place.dropLast = directory.location then place.getLast?.bind directory.files.get? else none

/-- What stands at a place.  The working directory exists, and so do the folders in which it
lies. -/
def entry? (directory : Directory) (place : List String) : Option Entry :=
  match directory.own? place, directory.elsewhere.get? (absolutePath place) with
  | some text, _ => some (.file (some text))
  | none, some entry => some entry
  | none, none => if place.isPrefixOf directory.location then some (.folder none) else none

/-- Follows one name from a place.  The root lies in itself. -/
def step (directory : Directory) (place : List String) (name : String) :
    Except FileFault (List String) :=
  match directory.entry? place with
  | some (.folder _) =>
      if name = "." then .ok place
      else if name = ".." then .ok place.dropLast
      else if name.utf8ByteSize > longestName then .error .nameTooLong
      else if (directory.entry? (place ++ [name])).isSome then .ok (place ++ [name])
      else .error .notFound
  | some _ => .error .notDirectory
  | none => .error .notFound

/-- Follows names from a place. -/
def walk (directory : Directory) : List String → List String → Except FileFault (List String)
  | place, [] => .ok place
  | place, name :: rest =>
      match directory.step place name with
      | .ok next => directory.walk next rest
      | .error fault => .error fault

/-- Where a path starts, if it can be followed at all. -/
def start (directory : Directory) (path : String) : Except FileFault (List String) :=
  if path.toList.contains '\x00' then .error .nulInPath
  else if path = "" then .error .notFound
  else if path.utf8ByteSize > longestPath then .error .nameTooLong
  else .ok (if isAbsolute path then [] else directory.location)

/-- The text at a place. -/
def readAt (directory : Directory) (place : List String) : Except FileFault String :=
  match directory.entry? place with
  | some (.folder _) => .error .isDirectory
  | some (.file (some text)) => .ok text
  | some (.file none) => .error .notText
  | some (.device _) => .ok ""
  | none => .error .notFound

/-- The text at a path.  A slash at the end of a path stands for the directory it
asks for. -/
def read (directory : Directory) (path : String) : Except FileFault String := do
  let itself := if asksForDirectory path then ["."] else []
  let place ← directory.walk (← directory.start path) (pathNames path ++ itself)
  directory.readAt place

/-- Keeps a text as the file of a name in a folder. -/
def keep (directory : Directory) (folder : List String) (name text : String) : Directory :=
  if folder = directory.location then { directory with files := directory.files.set name text }
  else
    { directory with
      elsewhere := directory.elsewhere.set (absolutePath (folder ++ [name])) (.file (some text)) }

/-- Writes a text to a device. -/
def writeDevice (directory : Directory) (text : String) : Device → Except FileFault Written
  | .null | .input => .ok ⟨directory, "", ""⟩
  | .full => .error .noSpace
  | .output => .ok ⟨directory, text, ""⟩
  | .errors => .ok ⟨directory, "", text⟩

/-- Writes a text under a name in a folder, which may refuse new files. -/
def writeIn (directory : Directory) (folder : List String) (refusal : Option FileFault)
    (name text : String) : Except FileFault Written :=
  match directory.step folder name with
  | .ok place =>
      match directory.entry? place with
      | some (.folder _) => .error .isDirectory
      | some (.device device) => directory.writeDevice text device
      | _ => .ok ⟨directory.keep folder name text, "", ""⟩
  | .error .notFound =>
      match refusal with
      | some fault => .error fault
      | none => .ok ⟨directory.keep folder name text, "", ""⟩
  | .error fault => .error fault

/-- Writes a text at a path.  A path that asks for a directory is refused before
its last name is looked up. -/
def write (directory : Directory) (path text : String) : Except FileFault Written := do
  let names := pathNames path
  let folder ← directory.walk (← directory.start path) names.dropLast
  match names.getLast?, directory.entry? folder with
  | some name, some (.folder refusal) =>
      if asksForDirectory path then .error .isDirectory
      else directory.writeIn folder refusal name text
  | some _, _ => .error .notDirectory
  | none, _ => .error .isDirectory

end Directory

end WeightedArgumentation
