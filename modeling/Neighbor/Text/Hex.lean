/-!
# Hexadecimal digits

Digits are written in lower case and read in either case.
-/

namespace Neighbor.Text

/-- The hexadecimal digit of value `n % 16`, in lower case. -/
def hexDigit (n : Nat) : Char :=
  if n % 16 < 10 then Char.ofNat (48 + n % 16) else Char.ofNat (87 + n % 16)

/-- The value of a hexadecimal digit. -/
def hexValue? (c : Char) : Option Nat :=
  if '0' ≤ c ∧ c ≤ '9' then some (c.toNat - 48)
  else if 'a' ≤ c ∧ c ≤ 'f' then some (c.toNat - 87)
  else if 'A' ≤ c ∧ c ≤ 'F' then some (c.toNat - 55)
  else none

/-- The two digits of a byte. -/
def hexPair (b : UInt8) : List Char :=
  [hexDigit (b.toNat / 16), hexDigit b.toNat]

/-- The four digits of a 16-bit word behind `0x`. -/
def hexWord (w : UInt16) : String :=
  let n := w.toNat
  String.ofList ['0', 'x', hexDigit (n / 4096), hexDigit (n / 256), hexDigit (n / 16), hexDigit n]

/-- The shortest digits of `n`, at least one. -/
def hexDigits (n : Nat) : List Char :=
  Nat.toDigits 16 n

/-- A digit reads back as its value. -/
theorem hexValue?_hexDigit (n : Nat) : hexValue? (hexDigit n) = some (n % 16) := by
  have h : n % 16 < 16 := Nat.mod_lt _ (by omega)
  have key : ∀ k : Fin 16, hexValue? (hexDigit k.val) = some k.val := by decide
  have := key ⟨n % 16, h⟩
  simpa [hexDigit] using this

end Neighbor.Text
