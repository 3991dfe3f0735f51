/-
  Main.lean --- the command line.

  Here commands meet the machine: its files, its output and its user.  Nothing is decided here.
-/
import SwaggerRoutes.Cli.Run

set_option autoImplicit false

namespace SwaggerRoutes.Cli

open Files

/-- The fault with a number that the machine reports; some of its layers report it negated. -/
def numbered (code : UInt32) (words : String) : OsFault :=
  .ofCode (min code.toNat (-code).toNat) words

/-- The fault behind a failure of the machine. -/
def osFault : IO.Error → OsFault
  | .alreadyExists _ code words => numbered code words
  | .otherError code words => numbered code words
  | .resourceBusy code words => numbered code words
  | .resourceVanished code words => numbered code words
  | .unsupportedOperation code words => numbered code words
  | .hardwareFault code words => numbered code words
  | .unsatisfiedConstraints code words => numbered code words
  | .illegalOperation code words => numbered code words
  | .protocolError code words => numbered code words
  | .timeExpired code words => numbered code words
  | .interrupted _ code words => numbered code words
  | .noFileOrDirectory _ code words => numbered code words
  | .invalidArgument _ code words => numbered code words
  | .permissionDenied _ code words => numbered code words
  | .resourceExhausted _ code words => numbered code words
  | .inappropriateType _ code words => numbered code words
  | .noSuchThing _ code words => numbered code words
  | .unexpectedEof => .other 0 "unexpected end of file"
  | .userError words => .other 0 words

/-- Carries out an action of the machine. -/
def attempt {α : Type} (act : IO α) : IO (Except OsFault α) := do
  try
    return .ok (← act)
  catch e => return .error (osFault e)

/-- Carries out an action of the machine on a path. -/
def attemptAt {α : Type} (path : String) (act : IO α) : IO (Except Fault α) :=
  if isTellable path then return (← attempt act).mapError .os else return .error .zeroInPath

/-- Bytes as the machine keeps them. -/
def packed (bytes : List UInt8) : ByteArray :=
  ⟨bytes.toArray⟩

/-- The files of the machine. -/
def machineStore : Store IO where
  isThere path := (System.mkFilePath [path]).pathExists
  isDirectory path := (System.mkFilePath [path]).isDir
  read path := attemptAt path do return (← IO.FS.readBinFile path).data.toList
  create path := attemptAt path (IO.FS.writeBinFile path ByteArray.empty)
  append path bytes := attemptAt path do
    let file ← IO.FS.Handle.mk path .append
    file.write (packed bytes)
    file.flush
  createDirectory path := attemptAt path (IO.FS.createDir path)

/-- The output of the machine. -/
def machineOutput : Sink IO where
  write bytes := do
    let out ← IO.getStdout
    return ((← attempt (out.write (packed bytes))).mapError .os).map fun () =>
      Fin.last bytes.length
  flush := do
    let out ← IO.getStdout
    return (← attempt out.flush).mapError .os

/-- The machine. -/
def machine : Host IO where
  store := machineStore
  output := machineOutput
  tell text := IO.eprint text

end SwaggerRoutes.Cli

/-- Runs the command that the arguments name. -/
def main (arguments : List String) : IO UInt32 :=
  SwaggerRoutes.Cli.run SwaggerRoutes.Cli.machine arguments
