import Neighbor.Message
import Neighbor.Settings

/-!
# Failures

The causes for which a request fails, and their wording.
-/

namespace Neighbor

/-- Why a request fails. -/
inductive Failure
  /-- There is no such file. -/
  | missingFile
  /-- The bytes of a file are not UTF-8. -/
  | notUtf8
  /-- A text is not a document of settings. -/
  | notSettings
  /-- A permanent binding is at fault. -/
  | binding (error : BindingError)
  /-- Bytes are not a message. -/
  | message (error : Message.DecodeError)
  /-- A queue has no room. -/
  | queueFull
  /-- The clock cannot hold a deadline. -/
  | beyondClock
deriving DecidableEq

namespace Failure

/-- The wording of a failure, for those that have one. -/
def text? : Failure → Option String
  | missingFile => some "I/O error: No such file or directory (os error 2)"
  | notUtf8 => some "I/O error: stream did not contain valid UTF-8"
  | notSettings => none
  | binding e => some ("config error: " ++ e.message)
  | message e => some ("parse error: " ++ e.message)
  | queueFull => some "pending queue full"
  | beyondClock => some "overflow when adding duration to instant"

end Failure

end Neighbor
