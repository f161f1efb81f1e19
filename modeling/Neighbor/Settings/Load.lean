import Neighbor.Failure
import Neighbor.Settings.Decode
import Neighbor.Toml.Document

/-!
# Settings from texts and files

Settings are written in TOML. A file of settings is UTF-8 text.
-/

namespace Neighbor

namespace Settings

/-- Reads a document of settings. -/
def ofText (s : String) : Except Failure Settings :=
  match (Toml.document? s).bind (ofValue? .toml) with
  | some settings => .ok settings
  | none => .error .notSettings

/-- Reads a file of settings, given its bytes if the file exists. -/
def ofFile (bytes : Option ByteArray) : Except Failure Settings :=
  match bytes with
  | none => .error .missingFile
  | some bytes =>
    match String.fromUTF8? bytes with
    | none => .error .notUtf8
    | some s => ofText s

/-- The configuration that settings make, or why they make none. -/
def config (s : Settings) : Except Failure Config :=
  match s.resolve with
  | .ok c => .ok c
  | .error e => .error (.binding e)

end Settings

end Neighbor
