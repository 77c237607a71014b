import ContentAddress.Reader.Script

/-!
# Directories

A directory of plain files, and how a path leads to one of them, also by way of the directories
above.  Opening fails for the reasons a file system gives, in the order in which it meets them along
the path.  A directory can be opened, and fails when it is read.
-/

namespace ContentAddress

inductive SystemError
  | notFound
  | notADirectory
  | isADirectory
  | nameTooLong
  | permissionDenied
deriving DecidableEq, Repr

namespace SystemError

def code : SystemError → Nat
  | notFound => 2
  | permissionDenied => 13
  | notADirectory => 20
  | isADirectory => 21
  | nameTooLong => 36

def ofCode? (number : Nat) : Option SystemError :=
  [notFound, permissionDenied, notADirectory, isADirectory, nameTooLong].find? fun error =>
    error.code = number

def kind : SystemError → IoKind
  | notFound => .notFound
  | permissionDenied => .permissionDenied
  | notADirectory => .notADirectory
  | isADirectory => .isADirectory
  | nameTooLong => .invalidFilename

def message : SystemError → String
  | notFound => "No such file or directory"
  | permissionDenied => "Permission denied"
  | notADirectory => "Not a directory"
  | isADirectory => "Is a directory"
  | nameTooLong => "File name too long"

def error (failure : SystemError) : IoError :=
  { kind := failure.kind, message? := some failure.message, origin := .system failure.code }

end SystemError

/-- What a path leads to. -/
inductive Opened
  | file (content : Bytes)
  | directory

namespace Opened

/-- The size in bytes, for a directory that of a block. -/
def size : Opened → Nat
  | file content => content.length
  | directory => 4096

def script : Opened → Script
  | file content => Script.ofSteps [.data content]
  | directory => Script.ofSteps [.fail SystemError.isADirectory.error]

end Opened

/-- A directory of plain files, each with its name. -/
structure Directory where
  files : List (String × Bytes) := []

namespace Directory

def maxName : Nat := 255

def maxPath : Nat := 4095

inductive Place
  | inside
  /-- A directory further up, up to the root.  Nothing is known to be in it. -/
  | above
  | file (content : Bytes)

def filesAt (directory : Directory) : Place → List (String × Bytes)
  | .inside => directory.files
  | .above | .file _ => []

/-- Where a name leads from a place.  An empty name and `.` stay in a directory, `..` leaves it, and
nothing is found through a file. -/
def step (directory : Directory) (place : Place) (name : String) : Except SystemError Place :=
  if let .file _ := place then .error .notADirectory
  else if name = "" ∨ name = "." then .ok place
  else if name = ".." then .ok .above
  else if maxName < name.utf8ByteSize then .error .nameTooLong
  else
    match (directory.filesAt place).lookup name with
    | some content => .ok (.file content)
    | none => .error .notFound

def walk (directory : Directory) (place : Place) (names : List String) :
    Except SystemError Place :=
  names.foldlM directory.step place

/-- The place where a path starts: the root if its first character is `/`. -/
def start (path : String) : Place :=
  if path.startsWith "/" then .above else .inside

/-- Opens what a path leads to.  The length of the whole path is judged before any name in it, and
each name only once the walk has come to it. -/
def find (directory : Directory) (path : String) : Except SystemError Opened :=
  if path = "" then .error .notFound
  else if maxPath < path.utf8ByteSize then .error .nameTooLong
  else
    (directory.walk (start path) (path.splitOn "/")).map fun
      | .file content => .file content
      | .inside | .above => .directory

end Directory

end ContentAddress
