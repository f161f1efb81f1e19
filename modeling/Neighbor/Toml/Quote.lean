import Neighbor.Text.Hex
import Neighbor.Toml.Blank

/-!
# Texts between quotes

A text stands between double quotes, where a backslash begins an escape, or between single quotes,
where every character stands for itself. A text between three quotes may go over several lines: a
line end right behind the opening is left out, a backslash at the end of a line joins it with the
next visible character, and up to two quotes may stand before the closing three.
-/

namespace Neighbor.Toml

/-- The four ways to write a text. -/
structure QuoteStyle where
  /-- Single quotes, without escapes. -/
  literal : Bool
  /-- Three quotes at each end. -/
  multiline : Bool

/-- The quote of a style. -/
def QuoteStyle.mark (q : QuoteStyle) : Char := if q.literal then '\'' else '"'

/-- What the next character of a text is read as. -/
inductive QuoteMode
  | plain
  /-- Behind a backslash. -/
  | escape
  /-- Within a code point, with `left` digits to come. -/
  | codePoint (left value : Nat)
  /-- Behind a backslash and blanks, before the end of the line. -/
  | joining
  /-- Behind a joined line end, before the next visible character. -/
  | margin
  /-- Behind a carriage return, which a line feed has to follow; `joined` if the line is joined
  with the next. -/
  | carriage (joined : Bool)
  /-- Behind `count` quotes of a text between three quotes. -/
  | quotes (count : Nat)

/-- What one character leads to. The characters read so far are in reverse order. -/
inductive QuoteStep
  | go (mode : QuoteMode) (read : List Char)
  /-- The text ends with this character. -/
  | close (read : List Char)
  /-- The text ended before this character. -/
  | closeBefore (read : List Char)
  | bad

/-- The character that a short escape stands for. -/
def shortEscape? (c : Char) : Option Char :=
  if c = 'b' then some '\x08'
  else if c = 't' then some '\t'
  else if c = 'n' then some '\n'
  else if c = 'f' then some '\x0c'
  else if c = 'r' then some '\r'
  else if c = '"' then some '"'
  else if c = '\\' then some '\\'
  else none

/-- The character of a code point, unless it is a surrogate or too large. -/
def charOf? (n : Nat) : Option Char :=
  if n < 0xd800 ∨ (0xdfff < n ∧ n < 0x110000) then some (Char.ofNat n) else none

/-- Reads one character as part of the text itself. -/
def plainStep (q : QuoteStyle) (read : List Char) (c : Char) : QuoteStep :=
  if c = q.mark then
    if q.multiline then .go (.quotes 1) read else .close read
  else if c = '\\' ∧ !q.literal then .go .escape read
  else if q.multiline ∧ c = '\n' then .go .plain ('\n' :: read)
  else if q.multiline ∧ c = '\r' then .go (.carriage false) read
  else if isPlain c then .go .plain (c :: read)
  else .bad

/-- Reads the character behind a backslash. -/
def escapeStep (q : QuoteStyle) (read : List Char) (c : Char) : QuoteStep :=
  match shortEscape? c with
  | some e => .go .plain (e :: read)
  | none =>
    if c = 'u' then .go (.codePoint 4 0) read
    else if c = 'U' then .go (.codePoint 8 0) read
    else if !q.multiline then .bad
    else if isBlank c then .go .joining read
    else if c = '\n' then .go .margin read
    else if c = '\r' then .go (.carriage true) read
    else .bad

/-- Reads one digit of a code point. -/
def codePointStep (left value : Nat) (read : List Char) (c : Char) : QuoteStep :=
  match Text.hexValue? c with
  | none => .bad
  | some d =>
    if 1 < left then .go (.codePoint (left - 1) (16 * value + d)) read
    else
      match charOf? (16 * value + d) with
      | some e => .go .plain (e :: read)
      | none => .bad

/-- Reads one character. -/
def quoteStep (q : QuoteStyle) (mode : QuoteMode) (read : List Char) (c : Char) : QuoteStep :=
  match mode with
  | .plain => plainStep q read c
  | .escape => escapeStep q read c
  | .codePoint left value => codePointStep left value read c
  | .joining =>
    if isBlank c then .go .joining read
    else if c = '\n' then .go .margin read
    else if c = '\r' then .go (.carriage true) read
    else .bad
  | .margin =>
    if isBlank c || c = '\n' then .go .margin read
    else if c = '\r' then .go (.carriage true) read
    else plainStep q read c
  | .carriage joined =>
    if c ≠ '\n' then .bad
    else if joined then .go .margin read
    else .go .plain ('\n' :: read)
  | .quotes count =>
    if c = q.mark then
      if count = 4 then .close (q.mark :: q.mark :: read) else .go (.quotes (count + 1)) read
    else if 3 ≤ count then .closeBefore (List.replicate (count - 3) q.mark ++ read)
    else plainStep q (List.replicate count q.mark ++ read) c

/-- Reads the rest of a text in a mode. The result is the text and what follows it. -/
def readQuoted (q : QuoteStyle) (mode : QuoteMode) (read : List Char) :
    List Char → Option (String × List Char)
  | [] =>
    match mode with
    | .quotes count =>
      if 3 ≤ count then
        some (String.ofList (List.replicate (count - 3) q.mark ++ read).reverse, [])
      else none
    | _ => none
  | c :: rest =>
    match quoteStep q mode read c with
    | .go mode' read' => readQuoted q mode' read' rest
    | .close read' => some (String.ofList read'.reverse, rest)
    | .closeBefore read' => some (String.ofList read'.reverse, c :: rest)
    | .bad => none

/-- Leaves out a line end in front, if there is one. -/
def skipNewline (cs : List Char) : List Char := (newline? cs).getD cs

/-- Reads a text in any of the four styles. -/
def quoted? (cs : List Char) : Option (String × List Char) :=
  match cs with
  | '"' :: '"' :: '"' :: rest => readQuoted ⟨false, true⟩ .plain [] (skipNewline rest)
  | '\'' :: '\'' :: '\'' :: rest => readQuoted ⟨true, true⟩ .plain [] (skipNewline rest)
  | '"' :: rest => readQuoted ⟨false, false⟩ .plain [] rest
  | '\'' :: rest => readQuoted ⟨true, false⟩ .plain [] rest
  | _ => none

/-- Reads a text that stays on its line. -/
def quotedLine? (cs : List Char) : Option (String × List Char) :=
  match cs with
  | '"' :: rest => readQuoted ⟨false, false⟩ .plain [] rest
  | '\'' :: rest => readQuoted ⟨true, false⟩ .plain [] rest
  | _ => none

end Neighbor.Toml
