import ServerStudy.Session

/-!
# ServerStudy.PacketHandler

`PacketHandler` (`Network/Server/PacketHandler.cpp`): the table of handlers,
filled by static registration, and the two handlers in it.

A handler gets the session and a header, which is an offset of the session's
`readOv_.buffer_`; it may read past the packet.  `sessionManager.Broadcast` is
a parameter.
-/

namespace ServerStudy

namespace PacketHandler

variable {σ : Type} {Q : Type → Type}

/-! ## handlers -/

section Handlers

variable (self : Lens σ Session) (broadcast : List UInt8 → UInt64 → Prog σ Q Fault Bool)

/-- `HandleC2S_MOVE`. -/
def handleC2SMove (off : Nat) : Prog σ Q Fault Bool := do
  let handle ← self.read fun s => s.handle_
  let x ← self.view fun s => s.readOv_.load (off + 4) 4
  let y ← self.view fun s => s.readOv_.load (off + 8) 4
  let header : PacketHeader := ⟨UInt16.ofNat S2CMove.sizeOf, S2CPacketId.kMove.toUInt16⟩
  if !(← broadcast (S2CMove.bytes header handle x y) handle) then
    return false
  return true

/-- What `HandleC2S_CHAT` writes into `data`, a vector of `size + 8` bytes, for a
packet of that size from `handle` with that payload. -/
def chatPacket (size : UInt16) (handle : UInt64) (payload : List UInt8) :
    Except Fault (List UInt8) :=
  Prog.orFault (.outOfRange .packet) do
    let data := List.replicate (size.toNat + 8) 0
    -- the assignment to `header.size` keeps 16 bits of the sum
    let header : PacketHeader := ⟨UInt16.ofNat (size.toNat + 8), S2CPacketId.kChat.toUInt16⟩
    let data ← patch data 0 header.bytes
    let data ← patch data S2CChat.sessionHandleOff (leBytes 8 handle.toNat)
    patch data S2CChat.messageOff payload

/-- `HandleC2S_CHAT`. -/
def handleC2SChat (off : Nat) : Prog σ Q Fault Bool := do
  let header ← self.view fun s => (s.readOv_.load off PacketHeader.sizeOf).map PacketHeader.ofBytes
  let handle ← self.read fun s => s.handle_
  let payload ← self.view fun s =>
    s.readOv_.load (off + PacketHeader.sizeOf) (sub64 header.size.toNat PacketHeader.sizeOf)
  let data ← Prog.lift (chatPacket header.size handle payload)
  if !(← broadcast data handle) then
    return false
  return true

end Handlers

/-! ## the table -/

/-- `HandlerFunc`, the header given as its offset; `none` is an empty
`std::function`. -/
abbrev HandlerFunc (σ : Type) (Q : Type → Type) := Option (Nat → Prog σ Q Fault Bool)

/-- `handlers`. -/
abbrev Handlers (σ : Type) (Q : Type → Type) := FixedArray C2SPacketId.kCnt (HandlerFunc σ Q)

/-- `PacketRegistration`. -/
def register (packetId : C2SPacketId) (handler : Nat → Prog σ Q Fault Bool)
    (handlers : Handlers σ Q) : Handlers σ Q :=
  Function.update handlers ⟨packetId.toNat, by cases packetId <;> decide⟩ (some handler)

/-- `handlers` after static initialization, for the handlers of `kMove` and
`kChat`. -/
def handlers (move chat : Nat → Prog σ Q Fault Bool) : Handlers σ Q :=
  register .kChat chat (register .kMove move fun _ => none)

/-- `Execute`: index the table by the header's id, and call what is there. -/
def execute (self : Lens σ Session) (handlers : Handlers σ Q) (off : Nat) :
    Prog σ Q Fault Bool := do
  let header ← self.view fun s => (s.readOv_.load off PacketHeader.sizeOf).map PacketHeader.ofBytes
  match handlers.get? header.id.toNat with
  | none => Prog.fault (.outOfRange .handlers)
  | some none => Prog.fault .emptyFunction
  | some (some handler) => handler off

/-- The id has a registered handler. -/
def Registered (id : UInt16) : Prop :=
  id.toNat = C2SPacketId.kMove.toNat ∨ id.toNat = C2SPacketId.kChat.toNat

theorem registered_iff (id : UInt16) : Registered id ↔ id.toNat = 1 ∨ id.toNat = 2 := Iff.rfl

instance (id : UInt16) : Decidable (Registered id) := inferInstanceAs (Decidable (_ ∨ _))

/-- The table holds a handler at the registered ids only. -/
theorem handlers_get? (move chat : Nat → Prog σ Q Fault Bool) (id : Nat) :
    (handlers move chat).get? id =
      if id = 0 then some none else if id = 1 then some (some move)
      else if id = 2 then some (some chat) else none := by
  by_cases hlt : id < C2SPacketId.kCnt
  · have hcases : id = 0 ∨ id = 1 ∨ id = 2 := by
      rw [C2SPacketId.kCnt] at hlt
      omega
    rw [FixedArray.get?_of_lt _ hlt]
    rcases hcases with rfl | rfl | rfl <;> rfl
  · rw [FixedArray.get?, dif_neg hlt]
    rw [C2SPacketId.kCnt] at hlt
    rw [if_neg (by omega), if_neg (by omega), if_neg (by omega)]

/-! ## the relayed packet -/

/-- Overwriting the middle of an object. -/
theorem patch_append (front old bs back : List UInt8) (h : old.length = bs.length) :
    patch (front ++ (old ++ back)) front.length bs = some (front ++ (bs ++ back)) := by
  rw [patch, if_pos (by simp only [List.length_append]; omega), List.take_left, ← h,
    ← List.drop_drop, List.drop_left, List.drop_left, List.append_assoc]

/-- The bytes of the relayed packet. -/
theorem chatPacket_eq {size : UInt16} (hsize : 4 ≤ size.toNat) (handle : UInt64)
    {payload : List UInt8} (hpayload : payload.length = size.toNat - 4) :
    chatPacket size handle payload =
      .ok (PacketHeader.bytes ⟨UInt16.ofNat (size.toNat + 8), S2CPacketId.kChat.toUInt16⟩ ++
        (leBytes 8 handle.toNat ++ payload)) := by
  have hzero : List.replicate (size.toNat + 8) (0 : UInt8) =
      [] ++ (List.replicate 4 0 ++ (List.replicate 8 0 ++ List.replicate (size.toNat - 4) 0)) := by
    rw [List.nil_append, List.replicate_append_replicate, List.replicate_append_replicate]
    congr 1
    omega
  generalize hheader : (⟨UInt16.ofNat (size.toNat + 8), S2CPacketId.kChat.toUInt16⟩ : PacketHeader) =
    header
  have hlen : header.bytes.length = S2CChat.sessionHandleOff := PacketHeader.length_bytes header
  have h₁ := patch_append [] (List.replicate 4 0) header.bytes
    (List.replicate 8 0 ++ List.replicate (size.toNat - 4) 0) (by simp)
  have h₂ := patch_append header.bytes (List.replicate 8 0) (leBytes 8 handle.toNat)
    (List.replicate (size.toNat - 4) 0) (by simp)
  have h₃ := patch_append (header.bytes ++ leBytes 8 handle.toNat)
    (List.replicate (size.toNat - 4) 0) payload [] (by simp [hpayload])
  simp only [List.append_assoc, List.append_nil, List.nil_append, List.length_nil] at h₁ h₂ h₃
  rw [hlen] at h₂
  rw [List.length_append, length_leBytes, PacketHeader.length_bytes] at h₃
  simp only [chatPacket, hzero, hheader, List.nil_append, h₁, h₂, Option.bind_eq_bind,
    Option.bind_some, S2CChat.messageOff, h₃, Prog.orFault_some]

end PacketHandler

end ServerStudy
