import Neighbor.Toml.Nested

/-!
# Documents

A document is a sequence of lines: pairs of a key and a value, and headers that name the table to
which the following pairs belong. Each table is written once: a header names a table that no other
header and no key with points has made, and a name is given one value.
-/

namespace Neighbor.Toml

/-- A line of a document that is neither blank nor a comment. -/
inductive Line
  | pair (p : Pair)
  /-- The following pairs belong to the table of these names. -/
  | header (names : List String)
  /-- The following pairs belong to a new table in the list of these names. -/
  | itemHeader (names : List String)

/-- Reads the line in front, which is not blank, up to its end. -/
def line? (cs : List Char) : Option (Line × List Char) :=
  match cs with
  | '[' :: '[' :: rest =>
    match key? rest with
    | some (names, ']' :: ']' :: rest) => some (.itemHeader names, rest)
    | _ => none
  | '[' :: rest =>
    match key? rest with
    | some (names, ']' :: rest) => some (.header names, rest)
    | _ => none
  | cs => (pair? (value? depthLimit) cs).map fun (p, rest) => (.pair p, rest)

/-- Reads all lines. -/
def lines? (cs : List Char) : Option (List Line) :=
  match skipLines cs with
  | [] => some []
  | start =>
    match line? start with
    | none => none
    | some (line, rest) =>
      match lineEnd? rest with
      | none => none
      | some more =>
        if more.length < cs.length then (lines? more).map (line :: ·) else none
termination_by cs.length

/-- How a table came about. -/
inductive Origin
  /-- A header names it. -/
  | header
  /-- A header names a table in it. -/
  | implied
  /-- A key with points names a member of it. -/
  | dotted
deriving DecidableEq

/-- A part of a document. -/
inductive Node
  | leaf (v : Value)
  | table (origin : Origin) (members : List (String × Node))
  /-- The tables of a list, the last one first. -/
  | tables (last : List (String × Node)) (earlier : List (List (String × Node)))

/-- Puts a value under the names of its key into a table. No header names a table on the way, and
the last one is new or comes from a key with points. A list on the way, though not at its end,
stands for the last table in it. -/
def addPair (name : String) (v : Value) :
    List String → List (String × Node) → Option (List (String × Node))
  | [], members =>
    match member? name members with
    | none => some (members ++ [(name, .leaf v)])
    | some _ => none
  | outer :: path, members =>
    match member? outer members with
    | none =>
      (addPair name v path []).map fun inner => members ++ [(outer, .table .dotted inner)]
    | some (.table origin inner) =>
      if origin = .header || (path.isEmpty && origin != .dotted) then none
      else
        (addPair name v path inner).map fun inner =>
          setMember outer (.table origin inner) members
    | some (.tables last earlier) =>
      if path.isEmpty then none
      else (addPair name v path last).map fun last => setMember outer (.tables last earlier) members
    | some (.leaf _) => none

/-- Changes the table of the names of a header, or makes it where it is missing. A name of a list
stands for the last table in it. -/
def within (change : List (String × Node) → Option (List (String × Node))) :
    List String → List (String × Node) → Option (List (String × Node))
  | [], members => change members
  | name :: path, members =>
    match member? name members with
    | none => (within change path []).map fun inner => members ++ [(name, .table .implied inner)]
    | some (.table origin inner) =>
      (within change path inner).map fun inner => setMember name (.table origin inner) members
    | some (.tables last earlier) =>
      (within change path last).map fun last => setMember name (.tables last earlier) members
    | some (.leaf _) => none

/-- Opens the table of a name for a header. -/
def openTable (name : String) (members : List (String × Node)) :
    Option (List (String × Node)) :=
  match member? name members with
  | none => some (members ++ [(name, .table .header [])])
  | some (.table .implied inner) => some (setMember name (.table .header inner) members)
  | some _ => none

/-- Opens a new table in the list of a name. -/
def openItem (name : String) (members : List (String × Node)) :
    Option (List (String × Node)) :=
  match member? name members with
  | none => some (members ++ [(name, .tables [] [])])
  | some (.tables last earlier) => some (setMember name (.tables [] (last :: earlier)) members)
  | some _ => none

/-- A document while it is put together. -/
structure Draft where
  members : List (String × Node) := []
  /-- The names of the table to which pairs belong. -/
  current : List String := []

/-- Takes one more line into a document. -/
def Draft.add (d : Draft) : Line → Option Draft
  | .pair p =>
    (within (addPair p.name p.value p.path) d.current d.members).map fun members =>
      { d with members }
  | .header names =>
    names.getLast?.bind fun name =>
      (within (openTable name) names.dropLast d.members).map fun members => ⟨members, names⟩
  | .itemHeader names =>
    names.getLast?.bind fun name =>
      (within (openItem name) names.dropLast d.members).map fun members => ⟨members, names⟩

mutual

/-- The value of a part of a document. -/
def Node.toValue : Node → Value
  | .leaf v => v
  | .table _ members => .table (Node.memberValues members)
  | .tables last earlier =>
    .list ((Node.tableValues earlier).reverse ++ [.table (Node.memberValues last)])

/-- The values of members. -/
def Node.memberValues : List (String × Node) → List (String × Value)
  | [] => []
  | (name, n) :: rest => (name, n.toValue) :: Node.memberValues rest

/-- The values of tables. -/
def Node.tableValues : List (List (String × Node)) → List Value
  | [] => []
  | members :: rest => .table (Node.memberValues members) :: Node.tableValues rest

end

/-- Leaves out a byte order mark in front. -/
def skipMark : List Char → List Char
  | '\ufeff' :: rest => rest
  | cs => cs

/-- Reads a document as a table. -/
def document? (s : String) : Option Value :=
  match lines? (skipMark s.toList) with
  | none => none
  | some lines =>
    (lines.foldlM Draft.add {}).map fun d => .table (Node.memberValues d.members)

end Neighbor.Toml
