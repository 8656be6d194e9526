import Mathlib.Data.List.Basic
import Mathlib.Tactic.Ring

/-!
# The RDT header

Every datagram of the data channel starts with a `CustomUDPHeader` of 15 bytes,
in network byte order, and carries an Internet checksum over the header (with
its checksum field set to `0`) and the payload.

* `serializeHeader`, `deserializeHeader`: the header as bytes and back
  (`deserializeHeader_serializeHeader`);
* `calculateChecksum`, `verifyChecksum`: a header stamped with its own checksum
  verifies (`verifyChecksum_stamp`), whatever its payload;
* `packet`: a stamped header followed by its payload, as every sending function
  of the RDT layer builds it. What a receiver reads back from it is
  `deserializeHeader_packet`, `drop_packet` and `verifies_packet`.
-/

namespace HybridFtp

/-- A byte string, such as the content of a datagram. -/
abbrev Bytes := List UInt8

/-- The header of a datagram. -/
structure CustomUDPHeader where
  seqNum : UInt32 := 0
  ackNum : UInt32 := 0
  payloadLen : UInt16 := 0
  windowSize : UInt16 := 0
  checksum : UInt16 := 0
  flags : UInt8 := 0
  deriving DecidableEq, Repr

/-- The header has no padding. -/
def CUSTOM_UDP_HEADER_SIZE : Nat := 15

/-! ## Flags -/

/-- An acknowledgement. -/
def FLAG_ACK : UInt8 := 2
/-- A segment. -/
def FLAG_DATA : UInt8 := 4
/-- The end of the segments. -/
def FLAG_FIN : UInt8 := 8

/-- With one more flag. -/
def setFlag (hdr : CustomUDPHeader) (flag : UInt8) : CustomUDPHeader :=
  { hdr with flags := hdr.flags ||| flag }

/-- Whether a flag is set. -/
def hasFlag (hdr : CustomUDPHeader) (flag : UInt8) : Bool := hdr.flags &&& flag != 0

/-! ## Network byte order -/

/-- The bytes of a 16-bit field, the high byte first. -/
def putU16 (x : UInt16) : Bytes := [UInt8.ofNat (x.toNat / 2 ^ 8), UInt8.ofNat x.toNat]

/-- The bytes of a 32-bit field, the high byte first. -/
def putU32 (x : UInt32) : Bytes :=
  [UInt8.ofNat (x.toNat / 2 ^ 24), UInt8.ofNat (x.toNat / 2 ^ 16),
    UInt8.ofNat (x.toNat / 2 ^ 8), UInt8.ofNat x.toNat]

/-- The 16-bit field at an offset of a buffer. -/
def getU16 (buffer : Bytes) (offset : Nat) : UInt16 :=
  UInt16.ofNat ((buffer.getD offset 0).toNat * 2 ^ 8 + (buffer.getD (offset + 1) 0).toNat)

/-- The 32-bit field at an offset of a buffer. -/
def getU32 (buffer : Bytes) (offset : Nat) : UInt32 :=
  UInt32.ofNat ((buffer.getD offset 0).toNat * 2 ^ 24 +
    (buffer.getD (offset + 1) 0).toNat * 2 ^ 16 +
    (buffer.getD (offset + 2) 0).toNat * 2 ^ 8 + (buffer.getD (offset + 3) 0).toNat)

/-- The bytes of a header. -/
def serializeHeader (hdr : CustomUDPHeader) : Bytes :=
  putU32 hdr.seqNum ++ putU32 hdr.ackNum ++ putU16 hdr.payloadLen ++ putU16 hdr.windowSize ++
    putU16 hdr.checksum ++ [hdr.flags]

/-- The header in a buffer. -/
def deserializeHeader (buffer : Bytes) : CustomUDPHeader where
  seqNum := getU32 buffer 0
  ackNum := getU32 buffer 4
  payloadLen := getU16 buffer 8
  windowSize := getU16 buffer 10
  checksum := getU16 buffer 12
  flags := buffer.getD 14 0

@[simp] theorem length_serializeHeader (hdr : CustomUDPHeader) :
    (serializeHeader hdr).length = CUSTOM_UDP_HEADER_SIZE := rfl

theorem ofNat_bytes_u16 (x : UInt16) :
    UInt16.ofNat ((UInt8.ofNat (x.toNat / 2 ^ 8)).toNat * 2 ^ 8 + (UInt8.ofNat x.toNat).toNat) =
      x := by
  have := x.toNat_lt
  rw [← UInt16.toNat_inj, UInt16.toNat_ofNat', UInt8.toNat_ofNat', UInt8.toNat_ofNat']
  omega

theorem ofNat_bytes_u32 (x : UInt32) :
    UInt32.ofNat ((UInt8.ofNat (x.toNat / 2 ^ 24)).toNat * 2 ^ 24 +
      (UInt8.ofNat (x.toNat / 2 ^ 16)).toNat * 2 ^ 16 +
      (UInt8.ofNat (x.toNat / 2 ^ 8)).toNat * 2 ^ 8 + (UInt8.ofNat x.toNat).toNat) = x := by
  have := x.toNat_lt
  rw [← UInt32.toNat_inj, UInt32.toNat_ofNat']
  simp only [UInt8.toNat_ofNat']
  omega

/-- A header is read back from its bytes, whatever follows them. -/
theorem deserializeHeader_serializeHeader (hdr : CustomUDPHeader) (rest : Bytes) :
    deserializeHeader (serializeHeader hdr ++ rest) = hdr := by
  obtain ⟨seqNum, ackNum, payloadLen, windowSize, checksum, flags⟩ := hdr
  simp only [deserializeHeader, CustomUDPHeader.mk.injEq]
  exact ⟨ofNat_bytes_u32 seqNum, ofNat_bytes_u32 ackNum, ofNat_bytes_u16 payloadLen,
    ofNat_bytes_u16 windowSize, ofNat_bytes_u16 checksum, rfl⟩

/-! ## Checksum -/

/-- Adding a 16-bit word to the sum, folding the carry back. -/
def addWord (sum : UInt32) (word : UInt16) : UInt32 :=
  let sum := sum + word.toUInt32
  if sum &&& (0xFFFF0000 : UInt32) ≠ 0 then (sum &&& (0xFFFF : UInt32)) + (sum >>> 16) else sum

/-- The sum of the 16-bit words of a byte string, a last odd byte standing for
    a word of its own. -/
def sumWords (sum : UInt32) : Bytes → UInt32
  | hi :: lo :: rest => sumWords (addWord sum (hi.toUInt16 <<< 8 ||| lo.toUInt16)) rest
  | [last] => addWord sum (last.toUInt16 <<< 8)
  | [] => sum

/-- The complement of the sum of the 16-bit words, with the carries added back. -/
def internetChecksum (data : Bytes) : UInt16 := (~~~sumWords 0 data &&& (0xFFFF : UInt32)).toUInt16

/-- The checksum of a datagram, whatever its header has in the field. -/
def calculateChecksum (hdr : CustomUDPHeader) (payload : Bytes) : UInt16 :=
  internetChecksum (serializeHeader { hdr with checksum := 0 } ++ payload)

/-- The field of the header is right. -/
def verifyChecksum (hdr : CustomUDPHeader) (payload : Bytes) : Bool :=
  hdr.checksum == calculateChecksum hdr payload

/-- The checksum does not depend on the checksum field. -/
theorem calculateChecksum_stamp (hdr : CustomUDPHeader) (c : UInt16) (payload : Bytes) :
    calculateChecksum { hdr with checksum := c } payload = calculateChecksum hdr payload := rfl

theorem verifyChecksum_stamp (hdr : CustomUDPHeader) (payload : Bytes) :
    verifyChecksum { hdr with checksum := calculateChecksum hdr payload } payload = true := by
  simp [verifyChecksum, calculateChecksum_stamp]

/-! ## Datagrams -/

/-- A header stamped with its checksum, followed by its payload. -/
def packet (hdr : CustomUDPHeader) (payload : Bytes) : Bytes :=
  serializeHeader { hdr with checksum := calculateChecksum hdr payload } ++ payload

/-- What `recvFrom` leaves of a datagram in a buffer of `size` bytes. -/
def readInto (size : Nat) (datagram : Bytes) : Bytes := datagram.take size

/-- The bytes in a receive buffer form a datagram that passes the checksum test. -/
def Verifies (buffer : Bytes) : Prop :=
  CUSTOM_UDP_HEADER_SIZE ≤ buffer.length ∧
    verifyChecksum (deserializeHeader buffer) (buffer.drop CUSTOM_UDP_HEADER_SIZE) = true

instance (buffer : Bytes) : Decidable (Verifies buffer) := inferInstanceAs (Decidable (_ ∧ _))

theorem length_packet (hdr : CustomUDPHeader) (payload : Bytes) :
    (packet hdr payload).length = CUSTOM_UDP_HEADER_SIZE + payload.length := by
  simp [packet]

theorem readInto_packet {hdr : CustomUDPHeader} {payload : Bytes} {size : Nat}
    (hsize : CUSTOM_UDP_HEADER_SIZE + payload.length ≤ size) :
    readInto size (packet hdr payload) = packet hdr payload :=
  List.take_of_length_le (by rwa [length_packet])

/-- The header is read whole, whatever the buffer cuts off. -/
theorem readInto_packet_eq {size : Nat} (hsize : CUSTOM_UDP_HEADER_SIZE ≤ size)
    (hdr : CustomUDPHeader) (payload : Bytes) :
    readInto size (packet hdr payload) =
      serializeHeader { hdr with checksum := calculateChecksum hdr payload } ++
        payload.take (size - CUSTOM_UDP_HEADER_SIZE) := by
  rw [readInto, packet, List.take_append, length_serializeHeader, List.take_of_length_le]
  exact hsize

theorem deserializeHeader_packet (hdr : CustomUDPHeader) (payload : Bytes) :
    deserializeHeader (packet hdr payload) =
      { hdr with checksum := calculateChecksum hdr payload } :=
  deserializeHeader_serializeHeader _ _

theorem drop_packet (hdr : CustomUDPHeader) (payload : Bytes) :
    (packet hdr payload).drop CUSTOM_UDP_HEADER_SIZE = payload := by
  rw [packet, ← length_serializeHeader, List.drop_left]

theorem verifies_packet (hdr : CustomUDPHeader) (payload : Bytes) :
    Verifies (packet hdr payload) := by
  refine ⟨by simp [length_packet], ?_⟩
  rw [deserializeHeader_packet, drop_packet, verifyChecksum_stamp]

end HybridFtp
