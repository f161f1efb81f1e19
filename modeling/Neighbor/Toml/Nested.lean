import Neighbor.Toml.Quote
import Neighbor.Toml.Word

/-!
# Keys, lists and tables between braces

A key is one name or several with points between them. A list may go over several lines, with
comments, and may end in a comma; a table between braces stays on its line and may not. Values are
nested up to a depth.
-/

namespace Neighbor.Toml

/-- Whether a character can be part of a name without quotes. -/
def isNameChar (c : Char) : Bool := c.isAlphanum || c == '_' || c == '-'

/-- Reads one name, quoted or not. -/
def name? (cs : List Char) : Option (String × List Char) :=
  match cs.takeWhile isNameChar with
  | [] => quotedLine? cs
  | bare => some (String.ofList bare, cs.dropWhile isNameChar)

/-- Reads items with `sep` between them until one is not followed by `sep`. Each item has to take
up at least one character. -/
def separated? {β : Type} (sep : Char) (item : List Char → Option (β × List Char))
    (cs : List Char) : Option (List β × List Char) :=
  match item cs with
  | none => none
  | some (b, rest) =>
    match rest with
    | c :: more =>
      if c = sep then
        if more.length < cs.length then
          (separated? sep item more).map fun (bs, last) => (b :: bs, last)
        else none
      else some ([b], rest)
    | [] => some ([b], [])
termination_by cs.length

/-- The most names in a key and the deepest nesting of values. -/
def depthLimit : Nat := 79

/-- Reads a key: its names, which may have blanks around them. -/
def key? (cs : List Char) : Option (List String × List Char) :=
  let spaced (cs : List Char) :=
    (name? (skipBlanks cs)).map fun (name, rest) => (name, skipBlanks rest)
  (separated? '.' spaced cs).filter fun (names, _) => names.length ≤ depthLimit

/-- A member of a table between braces, at the end of the names of its key. -/
structure Pair where
  /-- The names of the tables around it. -/
  path : List String
  name : String
  value : Value

/-- Reads a key, an equals sign and a value, with blanks around each. -/
def pair? (value : List Char → Option (Value × List Char)) (cs : List Char) :
    Option (Pair × List Char) :=
  match key? cs with
  | some (names, '=' :: rest) =>
    match names.getLast?, value (skipBlanks rest) with
    | some name, some (v, rest) => some (⟨names.dropLast, name, v⟩, skipBlanks rest)
    | _, _ => none
  | _ => none

/-- The member tables of a table between braces while its members are put in. -/
inductive Branch
  /-- A value as it was written. -/
  | leaf (v : Value)
  /-- A table that names with points between them have made. -/
  | dotted (members : List (String × Branch))

/-- Replaces the member of a name, or adds one at the end. -/
def setMember {β : Type} (name : String) (b : β) : List (String × β) → List (String × β)
  | [] => [(name, b)]
  | m :: rest => if m.1 = name then (name, b) :: rest else m :: setMember name b rest

/-- The member of a name. -/
def member? {β : Type} (name : String) (members : List (String × β)) : Option β :=
  (members.find? fun m => m.1 == name).map (·.2)

/-- Puts a value under its names into a table between braces. A name is given once, and a table
that was written as a value stays as it is. -/
def addBranch (name : String) (v : Value) :
    List String → List (String × Branch) → Option (List (String × Branch))
  | [], members =>
    match member? name members with
    | none => some (members ++ [(name, .leaf v)])
    | some _ => none
  | outer :: path, members =>
    match member? outer members with
    | none => (addBranch name v path []).map fun inner => members ++ [(outer, .dotted inner)]
    | some (.dotted inner) =>
      (addBranch name v path inner).map fun inner => setMember outer (.dotted inner) members
    | some (.leaf _) => none

mutual

/-- The value of a member. -/
def Branch.toValue : Branch → Value
  | .leaf v => v
  | .dotted members => .table (Branch.memberValues members)

/-- The values of members. -/
def Branch.memberValues : List (String × Branch) → List (String × Value)
  | [] => []
  | (name, b) :: rest => (name, b.toValue) :: Branch.memberValues rest

end

/-- The table of the pairs between braces. -/
def closedTable? (pairs : List Pair) : Option Value :=
  (pairs.foldlM (fun members p => addBranch p.name p.value p.path members) []).map fun members =>
    .table (Branch.memberValues members)

/-- Reads what follows an opening brace. -/
def braces? (value : List Char → Option (Value × List Char)) (cs : List Char) :
    Option (Value × List Char) :=
  match skipBlanks cs with
  | '\x7d' :: rest => (closedTable? []).map (·, rest)
  | cs =>
    match separated? ',' (pair? value) cs with
    | some (pairs, '\x7d' :: rest) => (closedTable? pairs).map (·, rest)
    | _ => none

/-- Reads what follows an opening bracket: the items, and a comma behind the last one or not. -/
def items? (value : List Char → Option (Value × List Char)) (cs : List Char) :
    Option (List Value × List Char) :=
  match skipLines cs with
  | ']' :: rest => some ([], rest)
  | start =>
    match value start with
    | none => none
    | some (v, rest) =>
      match skipLines rest with
      | ']' :: rest => some ([v], rest)
      | ',' :: rest =>
        if rest.length < cs.length then (items? value rest).map fun (vs, last) => (v :: vs, last)
        else none
      | _ => none
termination_by cs.length

/-- Reads a value in which lists and tables are nested up to `depth`. -/
def value? : Nat → List Char → Option (Value × List Char)
  | depth, cs =>
    match cs with
    | '[' :: rest =>
      match depth with
      | 0 => none
      | inner + 1 => (items? (value? inner) rest).map fun (vs, last) => (.list vs, last)
    | '\x7b' :: rest =>
      match depth with
      | 0 => none
      | inner + 1 => braces? (value? inner) rest
    | '"' :: _ => (quoted? cs).map fun (s, last) => (.text s, last)
    | '\'' :: _ => (quoted? cs).map fun (s, last) => (.text s, last)
    | _ => word? cs

end Neighbor.Toml
