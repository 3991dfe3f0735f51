/-
  Files/Sink.lean --- what takes bytes.

  A sink may take fewer bytes than it is offered, and it may fail.  `writeAll` offers the rest again
  until all are taken; a sink that takes none of some bytes has failed as well.  To ask a sink again
  that was interrupted before it took anything is part of one offer.
-/
import SwaggerRoutes.Files.Store

set_option autoImplicit false

namespace SwaggerRoutes.Files

/-- What takes bytes. -/
structure Sink (m : Type → Type) where
  /-- Offers bytes; the answer is how many of them were taken. -/
  write : (bytes : List UInt8) → m (Except Fault (Fin (bytes.length + 1)))
  /-- Sees to it that all bytes taken are where they belong. -/
  flush : m (Except Fault Unit)

namespace Sink

variable {m : Type → Type} [Monad m]

/-- Writes bytes until the sink has taken all of them. -/
def writeAll (s : Sink m) : List UInt8 → m (Except Fault Unit)
  | [] => pure (.ok ())
  | b :: bs => do
    match ← s.write (b :: bs) with
    | .error f => return .error f
    | .ok n => if n.val = 0 then return .error .nothingWritten else s.writeAll (bs.drop (n.val - 1))
  termination_by bytes => bytes.length
  decreasing_by simp only [List.length_drop, List.length_cons]; omega

/-- Writes a text and flushes. -/
def deliver (s : Sink m) (text : String) : m (Except Fault Unit) := do
  match ← s.writeAll (Text.utf8 text) with
  | .error f => return .error f
  | .ok () => s.flush

end Sink

/-- The sink that adds to the end of a file. -/
def Store.sink {m : Type → Type} [Monad m] (s : Store m) (path : String) : Sink m where
  write bytes := do
    match ← s.append path bytes with
    | .error f => return .error f
    | .ok () => return .ok (Fin.last bytes.length)
  flush := pure (.ok ())

end SwaggerRoutes.Files
