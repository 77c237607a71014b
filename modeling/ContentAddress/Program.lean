import ContentAddress.Client
import ContentAddress.Directory
import ContentAddress.Source.ChunkList
import ContentAddress.Text.Padding

/-!
# Two small programs

The first identifies a phrase in three ways and shows that they agree.  The second identifies a file
with both algorithms, and stops at the first error.  A transcript holds all that a run of either can
show.
-/

namespace ContentAddress

open Text (Layout)

structure Transcript where
  code : Nat := 0
  stdout : String
  stderr : String := ""
deriving DecidableEq, Repr

namespace Program

def phrase : List String := ["fearless", " ", "concurrency", " in", " rust"]

/-- Puts the phrase as a list of chunks, as one byte string, and once more as the list. -/
def identifyPhrase : Transcript :=
  let client := Client.default
  let list := ChunkList.ofList (phrase.map fun chunk => chunk.toUTF8.data.toList)
  let first := client.put .empty list (Source.Finite.ends list)
  let contiguous := client.putBytes (String.join phrase).toUTF8.data.toList
  let rewound := first.source.rewind
  let replayed := client.put first.pool rewound (Source.Finite.ends rewound)
  { stdout :=
      "Putting " ++ toString list.size ++ " chunks (" ++ toString list.totalLength ++
        " bytes)...\n\nblobid = " ++ first.id.hex ++ "\ncontiguous = " ++ contiguous.hex ++
        "\nreplayed = " ++ replayed.id.hex ++ "\n" }

def defaultPath : String := "Cargo.toml"

/-- The configurations that a file is identified with: reads of 64 KiB. -/
def fileClient (algorithm : Algorithm) : Client :=
  ⟨{ algorithm, readSize := 64 * 1024 }, by cases algorithm <;> decide⟩

/-- A run that prints text and may stop with an error; what it has printed stands. -/
abbrev Run (α : Type) := ExceptT Layout (StateM String) α

namespace Run

def print (text : String) : Run Unit := modify (· ++ text)

def transcript (run : Run Unit) : Transcript :=
  match StateT.run (ExceptT.run run) "" with
  | (.ok (), stdout) => { stdout }
  | (.error error, stdout) => { code := 1, stdout, stderr := "Error: " ++ error.plain ++ "\n" }

end Run

/-- Reads an opened file to the end and prints its identifier.  The pool is handed on. -/
def identifyWith (algorithm : Algorithm) (opened : Opened) (pool : Pool) : Run Pool := do
  let padding : Text.Padding := { alignment := .right, width := 7 }
  let receipt := (fileClient algorithm).putReader pool opened.script (Source.Finite.ends _)
  match receipt.result with
  | .ok id => Run.print (padding.apply algorithm.name ++ ": " ++ id.hex ++ "\n")
  | .error fault => throw fault.layout
  return receipt.pool

/-- Identifies what was opened under a path, or reports why it could not be opened. -/
def identifyOpened (path : String) (found : Except SystemError Opened) : Transcript :=
  Run.transcript do
    Run.print ("Putting file: " ++ path ++ "\n\n")
    match found with
    | .error failure => throw failure.error.layout
    | .ok opened =>
        Run.print ("File size: " ++ toString opened.size ++ " bytes\n\n")
        let pool ← identifyWith .xxh64 opened .empty
        discard (identifyWith .blake3 opened pool)

def identifyFile (directory : Directory) (arguments : List String) : Transcript :=
  let path := arguments.head?.getD defaultPath
  identifyOpened path (directory.find path)

end Program

end ContentAddress
