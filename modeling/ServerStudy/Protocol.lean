import Mathlib.Data.Nat.Digits.Lemmas
import ServerStudy.Framing

/-!
# ServerStudy.Protocol

The wire format (`Network/Common/Protocol.hpp`, `Config.hpp`): a packet is a
`PACKET_HEADER`, two little-endian 16-bit fields, followed by a body whose
layout depends on the `id`.  `size` counts the header.

* `leBytes` / `ofLeBytes` — little-endian fields;
* `PacketHeader.bytes` / `PacketHeader.ofBytes` — the header as it lies in memory;
* `packets` — the framing of a byte stream by `PACKET_HEADER::size`.
-/

namespace ServerStudy

/-! ## constants -/

/-- `Config::kMagicBufferSize`. -/
def kMagicBufferSize : Nat := 65536

/-- `Config::kPoolSize`. -/
def kPoolSize : Nat := 4096

/-- `Config::kAcceptCount`. -/
def kAcceptCount : Nat := 1000

/-- `Config::kChatPacketSize`. -/
def kChatPacketSize : Nat := 256

instance : NeZero kMagicBufferSize := ⟨by decide⟩

/-- `IO_TYPE`. -/
inductive IoType where
  | kNone | kRecv | kSend | kAccept | kDisconnect
  deriving DecidableEq

/-- `C2S_PACKET_ID`, less its `kCnt`. -/
inductive C2SPacketId where
  | kNone | kMove | kChat
  deriving DecidableEq

/-- `static_cast<size_t>` of a `C2S_PACKET_ID`. -/
def C2SPacketId.toNat : C2SPacketId → Nat
  | .kNone => 0
  | .kMove => 1
  | .kChat => 2

/-- `C2S_PACKET_ID::kCnt`. -/
def C2SPacketId.kCnt : Nat := 3

/-- `S2C_PACKET_ID`, less its `kCnt`. -/
inductive S2CPacketId where
  | kNone | kMove | kChat
  deriving DecidableEq

/-- `static_cast<uint16_t>` of an `S2C_PACKET_ID`. -/
def S2CPacketId.toUInt16 : S2CPacketId → UInt16
  | .kNone => 0
  | .kMove => 1
  | .kChat => 2

/-! ## little-endian fields -/

/-- The lowest `n` bytes of a number, lowest first. -/
def leBytes : Nat → Nat → List UInt8
  | 0, _ => []
  | n + 1, v => UInt8.ofNat v :: leBytes n (v / 256)

/-- The number a little-endian field holds. -/
def ofLeBytes : List UInt8 → Nat
  | [] => 0
  | b :: bs => b.toNat + 256 * ofLeBytes bs

@[simp] theorem length_leBytes (n v : Nat) : (leBytes n v).length = n := by
  induction n generalizing v with
  | zero => rfl
  | succ n ih => rw [leBytes, List.length_cons, ih]

theorem ofLeBytes_leBytes (n v : Nat) : ofLeBytes (leBytes n v) = v % 256 ^ n := by
  induction n generalizing v with
  | zero => simp [leBytes, ofLeBytes, Nat.mod_one]
  | succ n ih =>
      have hmod : v % 256 ^ (n + 1) = v % 256 + 256 * (v / 256 % 256 ^ n) := by
        rw [Nat.pow_succ', Nat.mod_mul]
      rw [leBytes, ofLeBytes, ih, UInt8.toNat_ofNat', hmod]

/-! ## headers -/

/-- `PACKET_HEADER`. -/
structure PacketHeader where
  size : UInt16
  id : UInt16
  deriving DecidableEq

namespace PacketHeader

/-- `sizeof(PACKET_HEADER)`. -/
def sizeOf : Nat := 4

/-- The header as it lies in memory. -/
def bytes (h : PacketHeader) : List UInt8 := leBytes 2 h.size.toNat ++ leBytes 2 h.id.toNat

/-- Lay a header over bytes. -/
def ofBytes (bs : List UInt8) : PacketHeader where
  size := UInt16.ofNat (ofLeBytes (bs.take 2))
  id := UInt16.ofNat (ofLeBytes ((bs.drop 2).take 2))

@[simp] theorem length_bytes (h : PacketHeader) : h.bytes.length = 4 := by
  simp [bytes]

/-- A field of two bytes holds its 16-bit value. -/
theorem ofNat_ofLeBytes_leBytes (v : UInt16) : UInt16.ofNat (ofLeBytes (leBytes 2 v.toNat)) = v := by
  have hv := v.toNat_lt
  rw [ofLeBytes_leBytes, Nat.mod_eq_of_lt (by omega), UInt16.ofNat_toNat]

/-- A header is read back, whatever follows it. -/
@[simp] theorem ofBytes_bytes_append (h : PacketHeader) (body : List UInt8) :
    ofBytes (h.bytes ++ body) = h := by
  have hsize : (h.bytes ++ body).take 2 = leBytes 2 h.size.toNat := by
    rw [bytes, List.append_assoc, List.take_left' (length_leBytes 2 _)]
  have hid : ((h.bytes ++ body).drop 2).take 2 = leBytes 2 h.id.toNat := by
    rw [bytes, List.append_assoc, List.drop_left' (length_leBytes 2 _),
      List.take_left' (length_leBytes 2 _)]
  rw [ofBytes, hsize, hid, ofNat_ofLeBytes_leBytes, ofNat_ofLeBytes_leBytes]

/-- Bytes after the header do not change it. -/
theorem ofBytes_append {s : List UInt8} (t : List UInt8) (h : 4 ≤ s.length) :
    ofBytes (s ++ t) = ofBytes s := by
  simp only [ofBytes]
  rw [List.take_append_of_le_length (by omega), List.drop_append_of_le_length (by omega),
    List.take_append_of_le_length (by rw [List.length_drop]; omega)]

end PacketHeader

/-- Cutting a byte stream into packets by `PACKET_HEADER::size`. -/
def packets : Framing UInt8 where
  header := PacketHeader.sizeOf
  header_pos := by decide
  size s := (PacketHeader.ofBytes s).size.toNat
  size_append s t h := by rw [PacketHeader.ofBytes_append t h]

@[simp] theorem packets_header : packets.header = 4 := rfl

theorem packets_size (s : List UInt8) : packets.size s = (PacketHeader.ofBytes s).size.toNat := rfl

/-! ## packets the server builds -/

/-- Overwrite bytes of an object, `none` when they are not all inside it. -/
def patch (data : List UInt8) (off : Nat) (bs : List UInt8) : Option (List UInt8) :=
  if off + bs.length ≤ data.length then
    some (data.take off ++ bs ++ data.drop (off + bs.length))
  else none

/-- `sizeof(S2C_MOVE)`. -/
def S2CMove.sizeOf : Nat := 20

/-- `sizeof(C2S_MOVE)`. -/
def C2SMove.sizeOf : Nat := 12

/-- An `S2C_MOVE` as it lies in memory; the two floats are raw bytes. -/
def S2CMove.bytes (header : PacketHeader) (sessionHandle : UInt64) (x y : List UInt8) : List UInt8 :=
  header.bytes ++ leBytes 8 sessionHandle.toNat ++ x ++ y

/-- The offset of `S2C_CHAT::sessionHandle`. -/
def S2CChat.sessionHandleOff : Nat := 4

/-- The offset of `S2C_CHAT::message`. -/
def S2CChat.messageOff : Nat := 12

/-- `sizeof(S2C_CHAT)`. -/
def S2CChat.sizeOf : Nat := S2CChat.messageOff + kChatPacketSize

/-- `S2C_CHAT::sessionHandle` of a packet. -/
def S2CChat.sessionHandle (packet : List UInt8) : Nat :=
  ofLeBytes ((packet.drop S2CChat.sessionHandleOff).take 8)

/-- `S2C_CHAT::message` of a packet. -/
def S2CChat.message (packet : List UInt8) : List UInt8 := packet.drop S2CChat.messageOff

/-- The digits of a number in ASCII. -/
def decimal (n : Nat) : List UInt8 :=
  if n = 0 then [48] else (Nat.digits 10 n).reverse.map fun d => UInt8.ofNat (48 + d)

/-- `sprintf("%lld")` of a 64-bit value, which it takes for a signed one. -/
def signedDecimal (v : UInt64) : List UInt8 :=
  if v.toNat < 2 ^ 63 then decimal v.toNat else 45 :: decimal (2 ^ 64 - v.toNat)

theorem length_decimal {n : Nat} (h : n < 10 ^ 20) : (decimal n).length ≤ 20 := by
  unfold decimal
  split_ifs
  · simp
  · rw [List.length_map, List.length_reverse]
    exact (Nat.digits_length_le_iff (by omega) _).mpr h

theorem length_signedDecimal (v : UInt64) : (signedDecimal v).length ≤ 21 := by
  have hv := v.toNat_lt
  unfold signedDecimal
  split_ifs with h
  · have := length_decimal (n := v.toNat) (by omega)
    omega
  · have := length_decimal (n := 2 ^ 64 - v.toNat) (by omega)
    rw [List.length_cons]
    omega

end ServerStudy
