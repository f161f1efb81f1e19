/-!
# Link addresses

A link address is six octets. The lowest bit of the first octet marks a group address; the
broadcast address is the group of all stations. A unicast address is neither a group address nor
all zero.
-/

namespace Neighbor

/-- A link address. -/
structure Mac where
  /-- The octet sent first. -/
  o1 : UInt8
  o2 : UInt8
  o3 : UInt8
  o4 : UInt8
  o5 : UInt8
  o6 : UInt8
deriving DecidableEq

namespace Mac

/-- The octets in the order in which they are sent. -/
def octets (m : Mac) : List UInt8 := [m.o1, m.o2, m.o3, m.o4, m.o5, m.o6]

/-- The address of six octets. -/
def ofOctets? : List UInt8 → Option Mac
  | [o1, o2, o3, o4, o5, o6] => some ⟨o1, o2, o3, o4, o5, o6⟩
  | _ => none

/-- The address of no station. -/
def zero : Mac := ⟨0, 0, 0, 0, 0, 0⟩

/-- The address of all stations. -/
def broadcast : Mac := ⟨255, 255, 255, 255, 255, 255⟩

/-- Whether the address is that of all stations. -/
def isBroadcast (m : Mac) : Bool := m == broadcast

/-- Whether the address is that of a group. -/
def isMulticast (m : Mac) : Bool := m.o1 &&& 1 == 1

/-- Whether the address can belong to one station. -/
def isUnicast (m : Mac) : Bool := !m.isMulticast && m != zero

/-- The octets of a link address make it again. -/
theorem ofOctets?_octets (m : Mac) : ofOctets? m.octets = some m := rfl

/-- Octets make a link address exactly if they are its six octets. -/
theorem ofOctets?_eq_some_iff {os : List UInt8} {m : Mac} :
    ofOctets? os = some m ↔ os = m.octets := by
  constructor
  · intro h
    unfold ofOctets? at h
    split at h
    · cases h
      rfl
    · exact nomatch h
  · rintro rfl
    exact ofOctets?_octets m

end Mac

end Neighbor
