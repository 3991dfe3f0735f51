/-
  Files/Fault.lean --- why reading or writing fails.

  Some faults are found by the operating system, which gives each a number; others by this library.
-/
import SwaggerRoutes.Text.Digits
import SwaggerRoutes.Text.Quoted

set_option autoImplicit false

namespace SwaggerRoutes.Files

/-- A fault that the operating system reports. -/
inductive OsFault where
  /-- Nothing has that path. -/
  | noEntry
  /-- Something has that path already. -/
  | alreadyThere
  /-- What the path leads through is no directory. -/
  | notDirectory
  /-- What has that path is a directory. -/
  | isDirectory
  /-- A name, or the whole path, is too long. -/
  | nameTooLong
  /-- Any other fault, with its number and the system's words for it. -/
  | other (code : Nat) (words : String)
  deriving DecidableEq, Repr

namespace OsFault

/-- The number of a fault. -/
def code : OsFault → Nat
  | noEntry => 2
  | alreadyThere => 17
  | notDirectory => 20
  | isDirectory => 21
  | nameTooLong => 36
  | other n _ => n

/-- The system's words for a fault. -/
def words : OsFault → String
  | noEntry => "No such file or directory"
  | alreadyThere => "File exists"
  | notDirectory => "Not a directory"
  | isDirectory => "Is a directory"
  | nameTooLong => "File name too long"
  | other _ w => w

/-- The fault with a number. -/
def ofCode (code : Nat) (words : String) : OsFault :=
  (([noEntry, alreadyThere, notDirectory, isDirectory, nameTooLong] : List OsFault).find?
    fun f => f.code = code).getD (.other code words)

/-- The message for a fault. -/
def message (f : OsFault) : String :=
  f.words ++ " (os error " ++ String.ofList (Text.decimal f.code) ++ ")"

end OsFault

/-- A fault in reading or writing. -/
inductive Fault where
  /-- The operating system reports it. -/
  | os (f : OsFault)
  /-- A path holds a zero character, at which the operating system would end it. -/
  | zeroInPath
  /-- What was read is no text. -/
  | notText
  /-- A source file is asked for under a name that is no qualified name. -/
  | notQualified (name : String)
  /-- A source file is asked for a second time. -/
  | alreadyCreated (name : String)
  /-- No output directory is set. -/
  | noOutputDirectory
  /-- A sink takes no more bytes, and says nothing about it. -/
  | nothingWritten
  /-- A sink reports a fault of its own. -/
  | sink (words : String)
  deriving DecidableEq, Repr

/-- The message for a fault. -/
def Fault.message : Fault → String
  | os f => f.message
  | zeroInPath => "file name contained an unexpected NUL byte"
  | notText => "stream did not contain valid UTF-8"
  | notQualified n => Text.quoted n ++ " is not a qualified type name"
  | alreadyCreated n => "source file for " ++ n ++ " was already created"
  | noOutputDirectory => "OUT_DIR is not set"
  | nothingWritten => "failed to write whole buffer"
  | sink w => w

end SwaggerRoutes.Files
