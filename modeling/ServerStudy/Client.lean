import ServerStudy.PacketHandler
import ServerStudy.Session.Read
import ServerStudy.Session.Write

/-!
# ServerStudy.Client

The client of the tests (`Tests/Base/Client.cpp`), as far as it reads the
welcome packet, and what it makes of the one that `Session::Connect` queues.

What was sent arrives in pieces; one `recv` takes no more than the first of them.

* `receiveWelcomePacket_eq` — a packet as long as its header says is read back,
  whatever the pieces;
* `welcome_lost` — the welcome packet announces less than it holds, so that its
  text is cut short for every handle.
-/

namespace ServerStudy

namespace Client

open Session OverlappedEx

/-! ## reading -/

/-- `Client::ReceiveByte`; `none` when the connection closes first. -/
def receiveByte : Nat → List (List UInt8) → Option (List UInt8 × List (List UInt8))
  | 0, pieces => some ([], pieces)
  | _ + 1, [] => none
  | len + 1, piece :: pieces =>
      if len + 1 < piece.length then some (piece.take (len + 1), piece.drop (len + 1) :: pieces)
      else (receiveByte (len + 1 - piece.length) pieces).map fun r => (piece ++ r.1, r.2)

/-- `Client::ReceivePacket` into an object; `none` is its `nullptr`. -/
def receivePacket (buffer : List UInt8) (pieces : List (List UInt8)) :
    Except Fault (Option (List UInt8 × List (List UInt8))) :=
  match receiveByte PacketHeader.sizeOf pieces with
  | none => .ok none
  | some (header, pieces) => do
    let buffer ← Prog.orFault (.outOfRange .packet) (patch buffer 0 header)
    -- `len` is an `int`: below zero, `ReceiveByte` asks for nothing
    match receiveByte ((PacketHeader.ofBytes buffer).size.toNat - PacketHeader.sizeOf) pieces with
    | none => .ok none
    | some (body, pieces) => do
      let buffer ← Prog.orFault (.outOfRange .packet) (patch buffer PacketHeader.sizeOf body)
      .ok (some (buffer, pieces))

/-- `Client::ReceiveWelcomePacket`: the `S2C_CHAT` whose `sessionHandle` it keeps. -/
def receiveWelcomePacket (pieces : List (List UInt8)) :
    Except Fault (Option (List UInt8 × List (List UInt8))) :=
  receivePacket (List.replicate S2CChat.sizeOf 0) pieces

/-- What a zero ends. -/
def cString (bytes : List UInt8) : List UInt8 := bytes.takeWhile (· ≠ 0)

/-! ## what is read -/

/-- As many bytes as asked for, whatever the pieces. -/
theorem receiveByte_eq {pieces : List (List UInt8)} (bytes : List UInt8) {rest : List UInt8}
    (h : pieces.flatten = bytes ++ rest) :
    ∃ left, receiveByte bytes.length pieces = some (bytes, left) ∧ left.flatten = rest := by
  induction pieces generalizing bytes with
  | nil =>
      obtain ⟨rfl, rfl⟩ := List.append_eq_nil_iff.mp h.symm
      exact ⟨[], rfl, rfl⟩
  | cons piece pieces ih =>
      cases hbytes : bytes with
      | nil =>
          rw [hbytes] at h
          exact ⟨piece :: pieces, rfl, h⟩
      | cons b bs =>
          rw [← hbytes]
          have hlen : bytes.length = bs.length + 1 := by rw [hbytes, List.length_cons]
          rw [List.flatten_cons] at h
          by_cases hlt : bytes.length < piece.length
          · -- the piece has more than is asked for
            have htake : piece.take bytes.length = bytes := by
              have := congrArg (List.take bytes.length) h
              rw [List.take_append_of_le_length hlt.le, List.take_left] at this
              exact this
            have hdrop : piece.drop bytes.length ++ pieces.flatten = rest := by
              have := congrArg (List.drop bytes.length) h
              rw [List.drop_append_of_le_length hlt.le, List.drop_left] at this
              exact this
            refine ⟨piece.drop bytes.length :: pieces, ?_, hdrop⟩
            rw [hlen] at hlt htake ⊢
            rw [receiveByte, if_pos hlt, htake]
          · -- all of the piece is taken
            have hpiece : bytes = piece ++ bytes.drop piece.length := by
              have := congrArg (List.take piece.length) h
              rw [List.take_left, List.take_append_of_le_length (by omega)] at this
              rw [← List.take_append_drop piece.length bytes, ← this, List.drop_left]
            have hrest : pieces.flatten = bytes.drop piece.length ++ rest := by
              rw [hpiece, List.append_assoc, List.append_cancel_left_eq] at h
              exact h
            obtain ⟨left, hleft, hflat⟩ := ih _ hrest
            rw [List.length_drop] at hleft
            refine ⟨left, ?_, hflat⟩
            rw [hlen] at hlt hleft ⊢
            rw [receiveByte, if_neg hlt, hleft, Option.map_some]
            rw [← hpiece]

/-- A packet of the size in its header, no longer than an `S2C_CHAT`, is read
into the front of it. -/
theorem receiveWelcomePacket_eq {packet rest : List UInt8} {pieces : List (List UInt8)}
    (hsize : 4 ≤ packets.size packet) (hlen : packet.length = packets.size packet)
    (hfit : packet.length ≤ S2CChat.sizeOf) (h : pieces.flatten = packet ++ rest) :
    ∃ left, receiveWelcomePacket pieces =
        .ok (some (packet ++ List.replicate (S2CChat.sizeOf - packet.length) 0, left)) ∧
      left.flatten = rest := by
  have hheader : (packet.take 4).length = 4 := List.length_take_of_le (by omega)
  have hparts : packet.take 4 ++ packet.drop 4 = packet := List.take_append_drop 4 packet
  obtain ⟨left, hleft, hflat⟩ := receiveByte_eq (packet.take 4)
    (show pieces.flatten = packet.take 4 ++ (packet.drop 4 ++ rest) by
      rw [h, ← List.append_assoc, hparts])
  obtain ⟨left', hleft', hflat'⟩ := receiveByte_eq (packet.drop 4) hflat
  rw [hheader] at hleft
  -- the two parts go into the object one after the other
  have hzero : List.replicate S2CChat.sizeOf (0 : UInt8) = List.replicate 4 0 ++
      (List.replicate (packet.length - 4) 0 ++
        List.replicate (S2CChat.sizeOf - packet.length) 0) := by
    rw [List.replicate_append_replicate, List.replicate_append_replicate]
    congr 1
    omega
  have hfirst := PacketHandler.patch_append [] (List.replicate 4 0) (packet.take 4)
    (List.replicate (packet.length - 4) 0 ++ List.replicate (S2CChat.sizeOf - packet.length) 0)
    (by rw [hheader, List.length_replicate])
  have hsecond := PacketHandler.patch_append (packet.take 4) (List.replicate (packet.length - 4) 0)
    (packet.drop 4) (List.replicate (S2CChat.sizeOf - packet.length) 0)
    (by rw [List.length_drop, List.length_replicate])
  rw [List.nil_append, List.nil_append, List.length_nil, ← hzero] at hfirst
  rw [hheader, ← List.append_assoc (packet.take 4) (packet.drop 4), hparts] at hsecond
  have hread : (PacketHeader.ofBytes (packet.take 4 ++ (List.replicate (packet.length - 4) 0 ++
      List.replicate (S2CChat.sizeOf - packet.length) 0))).size.toNat - 4 =
      (packet.drop 4).length := by
    rw [PacketHeader.ofBytes_append _ hheader.ge, ofBytes_take (by omega), ← packets_size, ← hlen,
      List.length_drop]
  refine ⟨left', ?_, hflat'⟩
  rw [receiveWelcomePacket, receivePacket, PacketHeader.sizeOf, hleft]
  simp only [hfirst, Prog.orFault_some, bind, Except.bind, hread, hleft', hsecond]

/-! ## the welcome packet -/

/-- What the client was to get: the handle, and its text as a C string. -/
structure RoundTrips (handle : UInt64) (packet : List UInt8) : Prop where
  sessionHandle : S2CChat.sessionHandle packet = handle.toNat
  message : cString (S2CChat.message packet) = signedDecimal handle

/-- The bytes of the welcome packet that `SendPacket` takes. -/
def welcomeSent (handle : UInt64) : List UInt8 :=
  (welcomePacket handle).take (packets.size (welcomePacket handle))

theorem length_welcomeSent (handle : UInt64) :
    (welcomeSent handle).length = 4 + (signedDecimal handle).length + 1 := by
  rw [welcomeSent, List.length_take_of_le (size_le_welcomePacket handle), size_welcomePacket]

theorem size_welcomeSent (handle : UInt64) :
    packets.size (welcomeSent handle) = (welcomeSent handle).length := by
  have hle := size_le_welcomePacket handle
  have hlen : 4 ≤ (welcomeSent handle).length := by
    rw [length_welcomeSent]
    omega
  have hparts : welcomeSent handle ++
      (welcomePacket handle).drop (packets.size (welcomePacket handle)) = welcomePacket handle :=
    List.take_append_drop _ _
  have hsame : packets.size (welcomePacket handle) = packets.size (welcomeSent handle) := by
    rw [← hparts]
    exact packets.size_append _ _ hlen
  rw [← hsame, welcomeSent, List.length_take_of_le hle]

/-- Zeros after a text do not make its C string longer. -/
theorem length_cString_le (text : List UInt8) (n : Nat) :
    (cString (text ++ List.replicate n 0)).length ≤ text.length := by
  induction text with
  | nil => cases n <;> simp [cString, List.replicate_succ]
  | cons c text ih =>
      rw [cString, List.cons_append, List.takeWhile_cons]
      split_ifs
      · rw [List.length_cons, List.length_cons]
        exact Nat.succ_le_succ ih
      · exact Nat.zero_le _

/-- The last seven characters of the text at least are not sent. -/
theorem length_message_le (handle : UInt64) (n : Nat) :
    (cString (S2CChat.message (welcomeSent handle ++ List.replicate n 0))).length ≤
      (signedDecimal handle).length - 7 := by
  rw [S2CChat.message, List.drop_append, List.drop_replicate]
  refine (length_cString_le _ _).trans ?_
  rw [List.length_drop, length_welcomeSent, S2CChat.messageOff]
  omega

/-- All of it is read. -/
theorem receive_welcome {handle : UInt64} {rest : List UInt8} {pieces : List (List UInt8)}
    (h : pieces.flatten = welcomeSent handle ++ rest) :
    ∃ left, receiveWelcomePacket pieces = .ok (some (welcomeSent handle ++
        List.replicate (S2CChat.sizeOf - (welcomeSent handle).length) 0, left)) ∧
      left.flatten = rest := by
  have htext := length_signedDecimal handle
  have hlen := length_welcomeSent handle
  refine receiveWelcomePacket_eq ?_ (size_welcomeSent handle).symm ?_ h
  · rw [size_welcomeSent]
    omega
  · rw [hlen, S2CChat.sizeOf, S2CChat.messageOff, kChatPacketSize]
    omega

theorem signedDecimal_ne_nil (handle : UInt64) : 0 < (signedDecimal handle).length := by
  unfold signedDecimal decimal
  split_ifs with h h0
  · simp
  · rw [List.length_map, List.length_reverse, List.length_pos_iff]
    exact Nat.digits_ne_nil_iff_ne_zero.mpr h0
  · simp
  · simp

theorem not_roundTrips (handle : UInt64) (n : Nat) :
    ¬ RoundTrips handle (welcomeSent handle ++ List.replicate n 0) := by
  intro h
  have hle := length_message_le handle n
  have hpos := signedDecimal_ne_nil handle
  rw [h.message] at hle
  omega

/-- **The welcome packet is lost on the client.**  Whatever session queues it, and
whatever follows it in whatever pieces, the client reads all that was queued,
and never finds the handle and its text in it. -/
theorem welcome_lost (handle : UInt64) (s : Session) (w : List UInt8) (hs : s.Queued w)
    (hroom : w.length + packets.size (welcomePacket handle) ≤ getSize) :
    ∃ bytes, copyIn (welcomePacket handle) (packets.size (welcomePacket handle)) s =
        .ok ((), s.queue bytes) ∧ (s.queue bytes).Queued (w ++ bytes) ∧
      ∀ pieces rest, pieces.flatten = bytes ++ rest →
        ∃ packet left, receiveWelcomePacket pieces = .ok (some (packet, left)) ∧
          left.flatten = rest ∧ ¬ RoundTrips handle packet := by
  have hlen : (welcomeSent handle).length = packets.size (welcomePacket handle) := by
    rw [length_welcomeSent, size_welcomePacket]
  refine ⟨welcomeSent handle, hs.copyIn_eq (size_le_welcomePacket handle) hroom,
    hs.queue _ (by rw [hlen]; exact hroom), fun pieces rest h => ?_⟩
  obtain ⟨left, hreceive, hleft⟩ := receive_welcome h
  exact ⟨_, left, hreceive, hleft, not_roundTrips handle _⟩

theorem welcome_lost_fresh :
    ∃ bytes, copyIn (welcomePacket 4294967296) (packets.size (welcomePacket 4294967296)) {} =
        .ok ((), queue {} bytes) ∧ (queue {} bytes).Queued ([] ++ bytes) ∧
      ∀ pieces rest, pieces.flatten = bytes ++ rest →
        ∃ packet left, receiveWelcomePacket pieces = .ok (some (packet, left)) ∧
          left.flatten = rest ∧ ¬ RoundTrips 4294967296 packet :=
  welcome_lost 4294967296 {} [] ⟨.nil rfl (by decide), by decide, by decide⟩ (by
    have hlen := length_signedDecimal 4294967296
    rw [size_welcomePacket, List.length_nil, getSize_eq]
    omega)

theorem ofLeBytes_eq_zero {bytes : List UInt8} (h : ∀ b ∈ bytes, b = 0) : ofLeBytes bytes = 0 := by
  induction bytes with
  | nil => rfl
  | cons b bytes ih =>
      have hb : b = 0 := h b List.mem_cons_self
      have hrest := ih fun c hc => h c (List.mem_cons_of_mem b hc)
      rw [ofLeBytes, hb, hrest]
      rfl

/-- `Connect` leaves `sessionHandle` zero, as far as it is sent at all. -/
theorem sessionHandle_welcome (handle : UInt64) (n : Nat) :
    S2CChat.sessionHandle (welcomeSent handle ++ List.replicate n 0) = 0 := by
  have hheader := length_welcomeSent handle
  refine ofLeBytes_eq_zero fun b hb => ?_
  rw [S2CChat.sessionHandleOff, List.drop_append_of_le_length (by omega), List.take_append,
    List.mem_append] at hb
  rcases hb with hb | hb
  · have hsent : (welcomeSent handle).drop 4 = (leBytes 8 0 ++ (signedDecimal handle ++
        List.replicate (kChatPacketSize - (signedDecimal handle).length) 0)).take
          ((signedDecimal handle).length + 1) := by
      rw [welcomeSent, size_welcomePacket, List.drop_take, welcomePacket]
      simp only [List.append_assoc]
      rw [List.drop_left' (PacketHeader.length_bytes _)]
      congr 1
      omega
    rw [hsent, List.take_take] at hb
    have hmem := (List.take_subset_take_left _ (Nat.min_le_left 8 _)) hb
    rw [List.take_left' (length_leBytes 8 0), show leBytes 8 0 = List.replicate 8 0 from rfl] at hmem
    exact List.eq_of_mem_replicate hmem
  · exact List.eq_of_mem_replicate (List.mem_of_mem_take hb)

/-- A client with the handle `4294967296` takes `0` for its own. -/
theorem welcome_lost_first :
    ∃ packet left, receiveWelcomePacket [welcomeSent 4294967296] = .ok (some (packet, left)) ∧
      S2CChat.sessionHandle packet = 0 ∧ ¬ RoundTrips 4294967296 packet := by
  obtain ⟨left, hreceive, -⟩ := receive_welcome
    (show [welcomeSent 4294967296].flatten = welcomeSent 4294967296 ++ [] by simp)
  exact ⟨_, left, hreceive, sessionHandle_welcome 4294967296 _, not_roundTrips 4294967296 _⟩

end Client

end ServerStudy
