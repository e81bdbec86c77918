import ServerStudy.Mirror
import ServerStudy.Protocol
import ServerStudy.SparsePool

/-!
# ServerStudy.OverlappedEx

`OverlappedEx` (`Network/Server/OverlappedEx.hpp`): one asynchronous operation
of a session, with the ring buffer it works on.  The bytes between `readPos_`
and `writePos_` are waiting, to be parsed or to be sent; both positions move up,
and are brought back together once `readPos_` has left the first mapping.

* `Holds ov bytes` — what is waiting;
* `Holds.consume`, `Holds.append`, `Holds.rewind` — how each operation changes
  it.
-/

namespace ServerStudy

/-! ## data -/

/-- `WSABUF`; `buf` is an offset in the buffer it points into. -/
structure WsaBuf where
  buf : Nat := 0
  len : Nat := 0
  deriving DecidableEq

/-- The fields of `OverlappedEx`.  What the kernel keeps in `overlapped_` is not
read by the program. -/
structure OverlappedEx where
  ioType_ : IoType := .kNone
  wsaBuf_ : WsaBuf := {}
  buffer_ : Mirror kMagicBufferSize := fun _ => 0
  sessionPtr_ : SharedPoolPtr := .null
  readPos_ : Nat := 0
  writePos_ : Nat := 0

namespace OverlappedEx

/-- `buffer_.GetSize()`. -/
abbrev getSize : Nat := kMagicBufferSize

theorem getSize_eq : getSize = 65536 := rfl

/-- `OverlappedEx::Reset`, up to its last line, `sessionPtr_.Reset()`. -/
def reset (ov : OverlappedEx) : OverlappedEx :=
  { ov with ioType_ := .kNone, wsaBuf_ := {}, buffer_ := fun _ => 0, readPos_ := 0, writePos_ := 0 }

/-- `writePos_ - readPos_`. -/
def available (ov : OverlappedEx) : Nat := sub64 ov.writePos_ ov.readPos_

/-- `readPos_ += n`. -/
def consume (ov : OverlappedEx) (n : Nat) : OverlappedEx :=
  { ov with readPos_ := add64 ov.readPos_ n }

/-- `writePos_ += n`. -/
def produce (ov : OverlappedEx) (n : Nat) : OverlappedEx :=
  { ov with writePos_ := add64 ov.writePos_ n }

/-- Bring both positions back when `readPos_` has left the first mapping. -/
def rewind (ov : OverlappedEx) : OverlappedEx :=
  if ov.readPos_ ≥ getSize then
    { ov with readPos_ := sub64 ov.readPos_ getSize, writePos_ := sub64 ov.writePos_ getSize }
  else ov

/-- Bytes of `buffer_` from an offset on, or a fault outside its two mappings. -/
def load (ov : OverlappedEx) (off n : Nat) : Except Fault (List UInt8) :=
  Prog.orFault (.outOfRange .buffer) (ov.buffer_.read? off n)

/-- Copy bytes to an offset of `buffer_`, or fault outside its two mappings. -/
def store (ov : OverlappedEx) (off : Nat) (bs : List UInt8) : Except Fault OverlappedEx :=
  (Prog.orFault (.outOfRange .buffer) (ov.buffer_.write? off bs)).map
    fun buffer => { ov with buffer_ := buffer }

/-! ## what is waiting -/

/-- The bytes between the two positions are `bytes`. -/
structure Holds (ov : OverlappedEx) (bytes : List UInt8) : Prop where
  writePos : ov.writePos_ = ov.readPos_ + bytes.length
  slice : ov.buffer_.slice ov.readPos_ bytes.length = bytes
  mapped : ov.readPos_ + bytes.length ≤ 2 * getSize

namespace Holds

variable {ov : OverlappedEx} {bytes : List UInt8}

/-- With equal positions nothing is waiting. -/
theorem nil (hpos : ov.writePos_ = ov.readPos_) (hle : ov.readPos_ ≤ 2 * getSize) :
    ov.Holds [] :=
  ⟨hpos, rfl, hle⟩

theorem available (h : ov.Holds bytes) : ov.available = bytes.length := by
  have hw := h.writePos
  have hm := h.mapped
  have hB := getSize_eq
  rw [OverlappedEx.available, sub64_of_le (by omega) (by omega), hw, Nat.add_sub_cancel_left]

/-- What is waiting is determined. -/
theorem inj {bytes' : List UInt8} (h : ov.Holds bytes) (h' : ov.Holds bytes') : bytes = bytes' := by
  have hw := h.writePos
  have hw' := h'.writePos
  rw [← h.slice, ← h'.slice, show bytes.length = bytes'.length by omega]

/-- `readPos_ += n` takes `n` bytes off the front. -/
theorem consume (h : ov.Holds bytes) {n : Nat} (hn : n ≤ bytes.length) :
    (ov.consume n).Holds (bytes.drop n) := by
  have hw := h.writePos
  have hm := h.mapped
  have hB := getSize_eq
  have hpos : (ov.consume n).readPos_ = ov.readPos_ + n := add64_of_lt (by omega)
  refine ⟨?_, ?_, ?_⟩
  · rw [hpos, List.length_drop, OverlappedEx.consume, hw]
    omega
  · rw [hpos, List.length_drop, OverlappedEx.consume, ← Mirror.drop_slice _ _ hn, h.slice]
  · rw [hpos, List.length_drop]
    omega

/-- Bytes copied to `writePos_`, followed by `writePos_ +=`, join the end. -/
theorem append (h : ov.Holds bytes) (more : List UInt8)
    (hring : bytes.length + more.length ≤ getSize)
    (hmap : ov.readPos_ + bytes.length + more.length ≤ 2 * getSize) :
    (({ ov with buffer_ := ov.buffer_.write ov.writePos_ more } : OverlappedEx).produce
      more.length).Holds (bytes ++ more) := by
  have hw := h.writePos
  have hB := getSize_eq
  refine ⟨?_, ?_, ?_⟩
  · rw [List.length_append]
    simp only [produce]
    rw [add64_of_lt (by omega), hw]
    omega
  · rw [List.length_append]
    simp only [produce]
    rw [hw, Mirror.slice_write_append _ _ _ hring, h.slice]
  · rw [List.length_append]
    simp only [produce]
    omega

/-- There is room for that copy. -/
theorem store (h : ov.Holds bytes) {more : List UInt8}
    (hmap : ov.readPos_ + bytes.length + more.length ≤ 2 * getSize) :
    ov.store ov.writePos_ more =
      .ok { ov with buffer_ := ov.buffer_.write ov.writePos_ more } := by
  have hw := h.writePos
  rw [OverlappedEx.store, Mirror.write?_of_le _ (by rw [hw]; exact hmap)]
  rfl

/-- The two mappings hold the same bytes, so bringing the positions back keeps
what is waiting. -/
theorem rewind (h : ov.Holds bytes) : ov.rewind.Holds bytes := by
  unfold OverlappedEx.rewind
  split_ifs with hge
  · have hw := h.writePos
    have hm := h.mapped
    have hs := h.slice
    have hB := getSize_eq
    obtain ⟨p, hp⟩ : ∃ p, ov.readPos_ = p + getSize := ⟨ov.readPos_ - getSize, by omega⟩
    have hr : sub64 ov.readPos_ getSize = p := by
      rw [sub64_of_le (by omega) (by omega), hp, Nat.add_sub_cancel]
    have hw' : sub64 ov.writePos_ getSize = p + bytes.length := by
      rw [sub64_of_le (by omega) (by omega)]
      omega
    refine ⟨?_, ?_, ?_⟩
    · simp only [hr, hw']
    · rw [hp, getSize, Mirror.slice_add_period] at hs
      simp only [hr, hs]
    · simp only [hr]
      omega
  · exact h

/-- After bringing them back, the positions start in the first mapping. -/
theorem rewind_lt (hlt : ov.readPos_ < 2 * getSize) : ov.rewind.readPos_ < getSize := by
  have hB := getSize_eq
  unfold OverlappedEx.rewind
  split_ifs with hge
  · simp only
    rw [sub64_of_le hge (by omega)]
    omega
  · omega

/-- The length `RegisterRead` posts is the room beside what is waiting. -/
theorem room_eq (h : ov.Holds bytes) (hfits : bytes.length ≤ getSize) :
    toULong (add64 (sub64 getSize ov.writePos_) ov.readPos_) = getSize - bytes.length := by
  have hw := h.writePos
  have hm := h.mapped
  have hB := getSize_eq
  simp only [toULong, add64, sub64]
  omega

/-- A prefix of what is waiting can be loaded. -/
theorem load (h : ov.Holds bytes) {n : Nat} (hn : n ≤ bytes.length) :
    ov.load ov.readPos_ n = .ok (bytes.take n) := by
  have hm := h.mapped
  have hle : ov.readPos_ + n ≤ 2 * kMagicBufferSize := by
    rw [getSize] at hm
    omega
  rw [OverlappedEx.load, Mirror.read?_of_le _ hle, Prog.orFault_some, ← Mirror.take_slice _ _ hn,
    h.slice]

end Holds

end OverlappedEx

end ServerStudy
