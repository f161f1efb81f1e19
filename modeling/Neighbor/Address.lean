import Neighbor.Text.Decimal

/-!
# Internet addresses

An address is four octets; addresses are ordered by their value as one number. The written form
is four decimal numbers with points between them, and the reader accepts nothing else: no leading
zero, no more than three digits, no number above 255.
-/

namespace Neighbor

/-- An internet address. -/
structure Address where
  /-- The most significant octet. -/
  a : UInt8
  b : UInt8
  c : UInt8
  d : UInt8
deriving DecidableEq

namespace Address

/-- The value of an address as one number. -/
def toNat (x : Address) : Nat :=
  ((x.a.toNat * 256 + x.b.toNat) * 256 + x.c.toNat) * 256 + x.d.toNat

/-- The octets in the order in which they are sent. -/
def octets (x : Address) : List UInt8 := [x.a, x.b, x.c, x.d]

/-- The address `0.0.0.0`, which stands for no address. -/
def unspecified : Address := ⟨0, 0, 0, 0⟩

/-- The address `255.255.255.255`, which stands for every host. -/
def broadcast : Address := ⟨255, 255, 255, 255⟩

/-- Whether the address can belong to one host. -/
def isUsable (x : Address) : Bool := x != unspecified && x != broadcast

instance : LT Address := ⟨fun x y => x.toNat < y.toNat⟩

instance : LE Address := ⟨fun x y => x.toNat ≤ y.toNat⟩

instance (x y : Address) : Decidable (x < y) := inferInstanceAs (Decidable (x.toNat < y.toNat))

instance (x y : Address) : Decidable (x ≤ y) := inferInstanceAs (Decidable (x.toNat ≤ y.toNat))

/-- Addresses are in the order of their numbers. -/
theorem lt_def {x y : Address} : x < y ↔ x.toNat < y.toNat := Iff.rfl

/-- The order of addresses that allows equality is that of their numbers too. -/
theorem le_def {x y : Address} : x ≤ y ↔ x.toNat ≤ y.toNat := Iff.rfl

/-- Addresses of equal value are equal. -/
theorem toNat_inj {x y : Address} : x.toNat = y.toNat ↔ x = y := by
  constructor
  · intro h
    cases x with
    | mk a b c d =>
      cases y with
      | mk e f g i =>
        simp only [toNat] at h
        have := a.toNat_lt
        have := b.toNat_lt
        have := c.toNat_lt
        have := d.toNat_lt
        have := e.toNat_lt
        have := f.toNat_lt
        have := g.toNat_lt
        have := i.toNat_lt
        simp only [mk.injEq, ← UInt8.toNat_inj]
        omega
  · rintro rfl
    rfl

/-- The characters of the written form. -/
def chars (x : Address) : List Char :=
  List.intercalate ['.'] (x.octets.map fun o => Text.decimal o.toNat)

/-- The written form, such as `192.0.2.1`. -/
def text (x : Address) : String := String.ofList x.chars

/-- Splits a text at every point. -/
def splitAtPoints : List Char → List (List Char)
  | [] => [[]]
  | c :: rest =>
    match splitAtPoints rest with
    | [] => [[c]]
    | part :: parts => if c = '.' then [] :: part :: parts else (c :: part) :: parts

/-- Reads one to three decimal digits without a leading zero as an octet. -/
def octet? (digits : List Char) : Option UInt8 :=
  let value := digits.foldl (fun n c => n * 10 + (c.toNat - 48)) 0
  if digits.all Char.isDigit && !digits.isEmpty && digits.length ≤ 3
      && (digits.head? != some '0' || digits.length = 1) && value < 256 then
    some (UInt8.ofNat value)
  else none

/-- Reads a written address. -/
def ofText? (s : String) : Option Address :=
  match (splitAtPoints s.toList).map octet? with
  | [some a, some b, some c, some d] => some ⟨a, b, c, d⟩
  | _ => none

end Address

end Neighbor
