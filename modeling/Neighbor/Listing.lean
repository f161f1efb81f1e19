import Neighbor.Entry
import Neighbor.Mac.Text
import Neighbor.Text.Decimal
import Neighbor.Text.Padded

/-!
# Listing the cache

A row shows one entry on one line: the address, the link address, the state and a mark for
permanent entries stand in columns of fixed width, and behind them, if there are any, the number
of waiting packets and of probes sent. A listing holds the rows in ascending order of addresses and
ends with the fill of the table.
-/

namespace Neighbor

/-- One entry as it is shown. -/
structure Row where
  address : Address
  mac? : Option Mac
  state : State
  isPermanent : Bool
  /-- The probes sent in the resolution or check that was under way. -/
  probes : Nat
  /-- The number of packets that waited. -/
  pending : Nat
  generation : Nat
deriving DecidableEq

namespace Row

/-- The characters of the line of a row. -/
def chars (r : Row) : List Char :=
  let mac := match r.mac? with
    | some mac => mac.chars
    | none => "(incomplete)".toList
  let mark := if r.isPermanent then "PERM".toList else []
  let queued := if 0 < r.pending then " queued=".toList ++ Text.decimal r.pending else []
  let probes :=
    if 0 < r.probes ∧ !r.state.isResolved then " probes=".toList ++ Text.decimal r.probes else []
  Text.padded 15 r.address.chars ++ ' ' :: Text.padded 17 mac ++
    ' ' :: Text.padded 10 r.state.text.toList ++ ' ' :: Text.padded 4 mark ++ queued ++ probes

/-- The line of a row. -/
def text (r : Row) : String := String.ofList r.chars

end Row

/-- The row of an entry. -/
def Entry.row {α : Type} (e : Entry α) : Row where
  address := e.address
  mac? := e.mac?
  state := e.state
  isPermanent := e.isPermanent
  probes := e.probes
  pending := e.waiting.length
  generation := e.generation

/-- The whole table as it is shown. -/
structure Listing where
  /-- The rows in ascending order of addresses. -/
  rows : Array Row
  capacity : Nat
deriving DecidableEq

namespace Listing

/-- The listing of rows in any order. -/
def ofRows (rows : List Row) (capacity : Nat) : Listing :=
  ⟨(rows.mergeSort fun x y => x.address ≤ y.address).toArray, capacity⟩

/-- Looks for the row of an address between the positions `lo` and `hi`, in the half that can
hold it. -/
def search (rows : Array Row) (a : Address) (lo hi : Nat) : Option Row :=
  if lo < hi then
    let mid := (lo + hi) / 2
    match rows[mid]? with
    | none => none
    | some r =>
      if r.address = a then some r
      else if r.address < a then search rows a (mid + 1) hi
      else search rows a lo mid
  else none
termination_by hi - lo

/-- The row of an address. -/
def find? (l : Listing) (a : Address) : Option Row := search l.rows a 0 l.rows.size

/-- The number of rows in a state. -/
def count (l : Listing) (s : State) : Nat := (l.rows.toList.filter fun r => r.state == s).length

/-- The names of the columns. -/
def heading : List Char :=
  Text.padded 15 "Address".toList ++ ' ' :: Text.padded 17 "HWaddress".toList ++
    ' ' :: Text.padded 10 "State".toList ++ " Flags".toList

/-- The line that ends a listing. -/
def fill (l : Listing) : List Char :=
  Text.decimal l.rows.size ++ '/' :: Text.decimal l.capacity ++ " entries".toList

/-- The text of a listing: the heading, a line for each row, and the fill of the table. -/
def text (l : Listing) : String :=
  String.ofList (List.intercalate ['\n'] (heading :: l.rows.toList.map Row.chars ++ [l.fill]))

end Listing

end Neighbor
