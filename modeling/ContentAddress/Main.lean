import ContentAddress.Program

/-!
# Command line

`phrase` identifies a fixed phrase, and `file` identifies the file that its argument names.
-/

namespace ContentAddress.Main

/-- The system's number for a failed request, zero if it has none.  Some requests report it with the
opposite sign. -/
def codeOf : IO.Error → Nat
  | .noFileOrDirectory _ code _ | .permissionDenied _ code _ | .inappropriateType _ code _
  | .invalidArgument _ code _ | .otherError code _ =>
      if code < 0x80000000 then code.toNat else (0 - code).toNat
  | _ => 0

/-- Opens what a path leads to, or says why it cannot be opened; other failures are passed on. -/
def openFile (path : String) : IO (Except SystemError Opened) := do
  match ← (IO.FS.readBinFile path).toBaseIO with
  | .ok content => return .ok (.file content.data.toList)
  | .error failure =>
      match SystemError.ofCode? (codeOf failure) with
      | some .isADirectory => return .ok .directory
      | some error => return .error error
      | none => throw failure

def showTranscript (transcript : Transcript) : IO UInt32 := do
  IO.print transcript.stdout
  IO.eprint transcript.stderr
  return UInt32.ofNat transcript.code

def run (arguments : List String) : IO UInt32 := do
  match arguments with
  | "phrase" :: _ => showTranscript Program.identifyPhrase
  | "file" :: arguments =>
      let path := arguments.head?.getD Program.defaultPath
      showTranscript (Program.identifyOpened path (← openFile path))
  | _ =>
      IO.eprintln "usage: (phrase | file [path])"
      return 2

end ContentAddress.Main

def main (arguments : List String) : IO UInt32 := ContentAddress.Main.run arguments
