import Neighbor.Address
import Neighbor.Mac
import Neighbor.Text.Hex

/-!
# Address-resolution messages

A message asks for, answers or announces the link address of an internet address. It is sent as
28 bytes, the high byte of each 16-bit word first. `Message.decode` accepts those bytes with
anything after them; of several faults it reports the first in the order length, types, address
lengths, operation.
-/

namespace Neighbor

/-- What a message does. -/
inductive Operation
  /-- Asks for the link address of the target. -/
  | request
  /-- Tells the link address of the sender. -/
  | reply
deriving DecidableEq

/-- An address-resolution message. -/
structure Message where
  operation : Operation
  senderMac : Mac
  senderIp : Address
  targetMac : Mac
  targetIp : Address
deriving DecidableEq

/-- Why bytes are not a message. -/
inductive Message.DecodeError
  /-- There are fewer than 28 bytes. -/
  | tooShort (length : Nat)
  /-- The hardware or protocol type is not Ethernet or IPv4. -/
  | unsupportedTypes (hardware protocol : UInt16)
  /-- The lengths of link and internet addresses are not 6 and 4. -/
  | addressLengths (hardware protocol : UInt8)
  /-- The operation is neither a request nor a reply. -/
  | unknownOperation (code : UInt16)
deriving DecidableEq

/-- The wording of a decoding failure. -/
def Message.DecodeError.message : Message.DecodeError → String
  | .tooShort length => "ARP packet too short: " ++ Text.decimalText length ++ " bytes"
  | .unsupportedTypes hardware protocol =>
    "unsupported ARP htype/ptype " ++ Text.hexWord hardware ++ "/" ++ Text.hexWord protocol
  | .addressLengths hardware protocol =>
    "invalid ARP address lengths " ++ Text.decimalText hardware.toNat ++ "/" ++
      Text.decimalText protocol.toNat
  | .unknownOperation code => "invalid ARP operation " ++ Text.decimalText code.toNat

namespace Operation

/-- The number of an operation. -/
def code : Operation → UInt16
  | request => 1
  | reply => 2

/-- The operation of a number. -/
def ofCode (n : UInt16) : Except Message.DecodeError Operation :=
  if n = 1 then .ok request
  else if n = 2 then .ok reply
  else .error (.unknownOperation n)

end Operation

namespace Message

/-- The hardware type of Ethernet. -/
def ethernet : UInt16 := 1

/-- The protocol type of IPv4. -/
def ipv4 : UInt16 := 0x0800

/-- The number of bytes of a message. -/
def wireLength : Nat := 28

/-- A 16-bit word, high byte first. -/
def wordBytes (w : UInt16) : List UInt8 := [(w >>> 8).toUInt8, w.toUInt8]

/-- The 16-bit word of a high and a low byte. -/
def word (hi lo : UInt8) : UInt16 := hi.toUInt16 <<< 8 ||| lo.toUInt16

/-- The bytes of a message. -/
def encode (m : Message) : List UInt8 :=
  wordBytes ethernet ++ wordBytes ipv4 ++ [6, 4] ++ wordBytes m.operation.code ++
    m.senderMac.octets ++ m.senderIp.octets ++ m.targetMac.octets ++ m.targetIp.octets

/-- Reads a message from the front of `bytes`. -/
def decode (bytes : List UInt8) : Except DecodeError Message :=
  match bytes with
  | h1 :: h0 :: p1 :: p0 :: hl :: pl :: c1 :: c0 ::
      s1 :: s2 :: s3 :: s4 :: s5 :: s6 :: sa :: sb :: sc :: sd ::
      t1 :: t2 :: t3 :: t4 :: t5 :: t6 :: ta :: tb :: tc :: td :: _ =>
    if word h1 h0 ≠ ethernet ∨ word p1 p0 ≠ ipv4 then
      .error (.unsupportedTypes (word h1 h0) (word p1 p0))
    else if hl ≠ 6 ∨ pl ≠ 4 then .error (.addressLengths hl pl)
    else
      match Operation.ofCode (word c1 c0) with
      | .error e => .error e
      | .ok operation =>
        .ok ⟨operation, ⟨s1, s2, s3, s4, s5, s6⟩, ⟨sa, sb, sc, sd⟩,
          ⟨t1, t2, t3, t4, t5, t6⟩, ⟨ta, tb, tc, td⟩⟩
  | short => .error (.tooShort short.length)

/-- Asks who has `target`. -/
def request (senderMac : Mac) (senderIp target : Address) : Message :=
  ⟨.request, senderMac, senderIp, .zero, target⟩

/-- Tells a host the link address of `senderIp`. -/
def reply (senderMac : Mac) (senderIp : Address) (targetMac : Mac) (targetIp : Address) :
    Message :=
  ⟨.reply, senderMac, senderIp, targetMac, targetIp⟩

/-- Announces a binding that nobody asked for. -/
def gratuitous (mac : Mac) (ip : Address) : Message := request mac ip ip

/-- Whether a message announces its sender: sender and target are one address. -/
def isGratuitous (m : Message) : Bool := m.senderIp == m.targetIp

/-- How often a new address is announced unless told otherwise. -/
def announceCount : Nat := 3

/-- The announcements of a binding. -/
def announcements (mac : Mac) (ip : Address) (count : Nat) : List Message :=
  List.replicate count (gratuitous mac ip)

end Message

end Neighbor
