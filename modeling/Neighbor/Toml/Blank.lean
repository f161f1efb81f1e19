/-!
# Blanks, comments and line ends

Readers take the characters still to be read and give back those that are left. Blanks are spaces
and tabs. A comment runs from `#` to the end of the line and holds no control character but the
tab. A line ends in a line feed, which a carriage return may precede, or at the end of the text.
-/

namespace Neighbor.Toml

/-- Whether a character is a blank. -/
def isBlank (c : Char) : Bool := c == ' ' || c == '\t'

/-- Whether a character may stand in a comment or a text: a tab or no control character. -/
def isPlain (c : Char) : Bool := c == '\t' || (' ' ≤ c && c.toNat != 0x7f)

/-- Leaves out blanks. -/
def skipBlanks (cs : List Char) : List Char := cs.dropWhile isBlank

/-- Leaves out the line feed in front, with or without a carriage return. -/
def newline? : List Char → Option (List Char)
  | '\n' :: rest => some rest
  | '\r' :: '\n' :: rest => some rest
  | _ => none

/-- Leaves out a comment, if there is one. -/
def skipComment : List Char → List Char
  | '#' :: rest => rest.dropWhile isPlain
  | cs => cs

/-- Leaves out what may follow on a line that is complete: blanks, a comment and the line's end. -/
def lineEnd? (cs : List Char) : Option (List Char) :=
  match skipComment (skipBlanks cs) with
  | [] => some []
  | rest => newline? rest

/-- Blanks that are skipped do not lengthen the text. -/
theorem length_skipBlanks_le (cs : List Char) : (skipBlanks cs).length ≤ cs.length :=
  (List.dropWhile_sublist _).length_le

/-- A comment that is skipped does not lengthen the text. -/
theorem length_skipComment_le (cs : List Char) : (skipComment cs).length ≤ cs.length := by
  unfold skipComment
  split
  · exact Nat.le_succ_of_le (List.dropWhile_sublist _).length_le
  · exact Nat.le_refl _

/-- A line end that is read shortens the text. -/
theorem length_newline?_lt {cs rest : List Char} (h : newline? cs = some rest) :
    rest.length < cs.length := by
  unfold newline? at h
  split at h <;> cases h <;> simp only [List.length_cons] <;> omega

/-- Leaves out blanks, comments and line ends. A comment that no line end follows is left out only
at the end of the text. -/
def skipLines (cs : List Char) : List Char :=
  match h : newline? (skipComment (skipBlanks cs)) with
  | some rest =>
    have : rest.length < cs.length := Nat.lt_of_lt_of_le (length_newline?_lt h)
      (Nat.le_trans (length_skipComment_le _) (length_skipBlanks_le cs))
    skipLines rest
  | none => if (skipComment (skipBlanks cs)).isEmpty then [] else skipBlanks cs
termination_by cs.length

end Neighbor.Toml
