import Neighbor.Mac
import Neighbor.Text.Hex
import Neighbor.Text.Quoted

/-!
# The text of a link address

A link address is written as six groups of two lower-case hexadecimal digits with colons between
them. The reader takes digits in either case and a colon or a hyphen between any two groups. A
group may also be a plus sign and one digit.
-/

namespace Neighbor.Mac

/-- Why a text is not a link address: the text itself. -/
structure ReadError where
  /-- What was to be read. -/
  input : String
deriving DecidableEq

/-- The wording of a reading failure. -/
def ReadError.message (e : ReadError) : String :=
  "invalid MAC address: " ++ Text.quoted e.input

/-- The characters of the written form. -/
def chars (m : Mac) : List Char :=
  List.intercalate [':'] (m.octets.map Text.hexPair)

/-- The written form, such as `02:00:5e:00:00:0a`. -/
def text (m : Mac) : String := String.ofList m.chars

/-- Whether a character stands between two groups. -/
def isSeparator (c : Char) : Bool := c == ':' || c == '-'

/-- Splits a text at every separator. -/
def groups : List Char → List (List Char)
  | [] => [[]]
  | c :: rest =>
    match groups rest with
    | [] => [[c]]
    | g :: gs => if isSeparator c then [] :: g :: gs else (c :: g) :: gs

/-- Reads one group as an octet. -/
def group? : List Char → Option UInt8
  | [hi, lo] =>
    match Text.hexValue? hi, Text.hexValue? lo with
    | some h, some l => some (UInt8.ofNat (16 * h + l))
    | none, some l => if hi = '+' then some (UInt8.ofNat l) else none
    | _, none => none
  | _ => none

/-- Reads the characters of a link address. -/
def ofChars? (cs : List Char) : Option Mac :=
  ((groups cs).mapM group?).bind ofOctets?

/-- Reads a link address. -/
def read (s : String) : Except ReadError Mac :=
  match ofChars? s.toList with
  | some m => .ok m
  | none => .error ⟨s⟩

end Neighbor.Mac
