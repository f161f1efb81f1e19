/-!
# Trees of settings

Settings are read from a tree of values, whatever the notation in which the tree was written.
-/

namespace Neighbor

/-- A value in a tree of settings. -/
inductive Value
  | null
  | truth (b : Bool)
  | integer (n : Int)
  /-- A number that is not written as an integer. No setting is one, so its value is not kept. -/
  | real
  /-- A date, a time of day or both. No setting is one, so its value is not kept. -/
  | moment
  | text (s : String)
  | list (items : List Value)
  /-- Members with names of their own. -/
  | table (members : List (String × Value))
deriving Inhabited

namespace Value

/-- A table with no members, or a list with no items. -/
def isEmpty : Value → Bool
  | list items => items.isEmpty
  | table members => members.isEmpty
  | _ => false

/-- The member of a name. -/
def member? (name : String) (members : List (String × Value)) : Option Value :=
  (members.find? fun m => m.1 == name).map (·.2)

end Value

end Neighbor
