import ServerStudy.Client

/-!
# ServerStudy.Client.Packets

The clients at the other end: the one of the tests (`Tests/Base/Client.cpp`), as it sends packets
and reads one after the other into one buffer, and the older one (`Network/Legacy/Client`), which
looks at the size of a packet before it reads the rest.

`send` may take part of what it is given, and `recv` returns part of what has arrived; how much is
left free.

* `stream_front`, `stream_eq` — the packets go out one after the other, none twice;
* `Legacy.receivePackets_cut` — the older client is given the packets of the stream, whatever is
  in it;
* `receivePackets_whole` — so is that of the tests, if the stream is well formed;
* `Legacy.threadFunc_takes_turns` — a thread of the older client is never more than one packet
  ahead.
-/

namespace ServerStudy

namespace Client

open Session

/-- `Config::kClientBufferSize`. -/
def kClientBufferSize : Nat := 65536

/-! ## sending -/

/-- `Client::SendByte`, for what its calls of `send` return, `none` for `SOCKET_ERROR`: the bytes
sent, and its result unless the next call blocks. -/
def sendByte : List UInt8 → List (Option Nat) → List UInt8 × Option Bool
  | [], _ => ([], some true)
  | _ :: _, [] => ([], none)
  | _ :: _, none :: _ | _ :: _, some 0 :: _ => ([], some false)
  | b :: bs, some (n + 1) :: results =>
      let rest := sendByte ((b :: bs).drop (n + 1)) results
      ((b :: bs).take (n + 1) ++ rest.1, rest.2)

/-- `Client::SendPacket`. -/
def sendPacket (packet : List UInt8) (results : List (Option Nat)) : List UInt8 × Option Bool :=
  sendByte (packet.take (packets.size packet)) results

/-- A call of `SendPacket`, with what `send` returns to it. -/
structure SendCall where
  packet : List UInt8
  results : List (Option Nat)

/-- What a client sends that makes these calls until one fails. -/
def stream : List SendCall → List UInt8
  | [] => []
  | call :: calls =>
      let r := sendPacket call.packet call.results
      r.1 ++ if r.2 = some true then stream calls else []

/-! ## receiving -/

namespace Legacy

/-- `Client::ReceivePacket` of the older client. -/
def receivePacket (buffer : List UInt8) (pieces : List (List UInt8)) :
    Except Fault (Option (List UInt8 × List (List UInt8))) :=
  match receiveByte PacketHeader.sizeOf pieces with
  | none => .ok none
  | some (header, pieces) => do
    let buffer ← Prog.orFault (.outOfRange .packet) (patch buffer 0 header)
    let size := (PacketHeader.ofBytes buffer).size.toNat
    if size < PacketHeader.sizeOf ∨ buffer.length < size then
      .ok none
    else
      match receiveByte (size - PacketHeader.sizeOf) pieces with
      | none => .ok none
      | some (body, pieces) => do
        let buffer ← Prog.orFault (.outOfRange .packet) (patch buffer PacketHeader.sizeOf body)
        .ok (some (buffer, pieces))

/-- `Client::HandlePacket`. -/
def handlePacket (packet : List UInt8) : Bool :=
  let id := (PacketHeader.ofBytes packet).id.toNat
  id = C2SPacketId.kMove.toNat || id = C2SPacketId.kChat.toNat

/-- What a thread has sent, and the packets it has been given. -/
structure Talk where
  sent : List UInt8
  received : List (List UInt8)

/-- `Client::ThreadFunc`, for what `send` returns in each turn of its loop, of which the source
has three. -/
def threadFunc (chatPacket : List UInt8) :
    List (List (Option Nat)) → List UInt8 → List (List UInt8) → Except Fault Talk
  | [], _, _ => .ok ⟨[], []⟩
  | results :: turns, buffer, pieces => do
    let r := sendPacket chatPacket results
    if r.2 ≠ some true then
      .ok ⟨r.1, []⟩
    else
      match ← receivePacket buffer pieces with
      | none => .ok ⟨r.1, []⟩
      | some (buffer, pieces) =>
        let packet := buffer.take (packets.size buffer)
        if !handlePacket packet then
          .ok ⟨r.1, [packet]⟩
        else do
          let rest ← threadFunc chatPacket turns buffer pieces
          .ok ⟨r.1 ++ rest.sent, packet :: rest.received⟩

end Legacy

/-- The packets that `n` calls of `ReceivePacket` return, each into the same buffer, until one
returns `nullptr`. -/
def receivePackets (receive : List UInt8 → List (List UInt8) →
      Except Fault (Option (List UInt8 × List (List UInt8)))) :
    Nat → List UInt8 → List (List UInt8) → Except Fault (List (List UInt8))
  | 0, _, _ => .ok []
  | n + 1, buffer, pieces => do
    match ← receive buffer pieces with
    | none => .ok []
    | some (buffer, pieces) =>
      let rest ← receivePackets receive n buffer pieces
      .ok (buffer.take (packets.size buffer) :: rest)

/-! ## what is sent -/

/-- The front of the bytes, and all of them when it succeeds. -/
theorem sendByte_front (bytes : List UInt8) (results : List (Option Nat)) :
    (sendByte bytes results).1 <+: bytes ∧
      ((sendByte bytes results).2 = some true → (sendByte bytes results).1 = bytes) := by
  fun_induction sendByte bytes results with
  | case1 => exact ⟨List.prefix_rfl, fun _ => rfl⟩
  | case2 => exact ⟨List.nil_prefix, fun h => nomatch h⟩
  | case3 => exact ⟨List.nil_prefix, fun h => nomatch h⟩
  | case4 => exact ⟨List.nil_prefix, fun h => nomatch h⟩
  | case5 b bs n results rest ih =>
      obtain ⟨hfront, hall⟩ := ih
      have hparts := List.take_append_drop (n + 1) (b :: bs)
      refine ⟨?_, fun h => ?_⟩
      · conv_rhs => rw [← hparts]
        exact (List.prefix_append_right_inj _).mpr hfront
      · conv_rhs => rw [← hparts]
        rw [hall h]

variable {packet : List UInt8} {calls : List SendCall}

theorem sendPacket_front (h : packets.Whole packet) (results : List (Option Nat)) :
    (sendPacket packet results).1 <+: packet ∧
      ((sendPacket packet results).2 = some true → (sendPacket packet results).1 = packet) := by
  rw [sendPacket, h.2, List.take_length]
  exact sendByte_front packet results

/-- The packets, one after the other. -/
theorem stream_front (h : ∀ call ∈ calls, packets.Whole call.packet) :
    stream calls <+: (calls.map SendCall.packet).flatten := by
  induction calls with
  | nil => exact List.prefix_rfl
  | cons call calls ih =>
      obtain ⟨hfront, hall⟩ := sendPacket_front (h call List.mem_cons_self) call.results
      rw [stream, List.map_cons, List.flatten_cons]
      split_ifs with hsent
      · rw [hall hsent]
        exact (List.prefix_append_right_inj _).mpr
          (ih fun c hc => h c (List.mem_cons_of_mem _ hc))
      · rw [List.append_nil]
        exact hfront.trans (List.prefix_append _ _)

/-- All of them, if no call fails. -/
theorem stream_eq (h : ∀ call ∈ calls, packets.Whole call.packet)
    (hsent : ∀ call ∈ calls, (sendPacket call.packet call.results).2 = some true) :
    stream calls = (calls.map SendCall.packet).flatten := by
  induction calls with
  | nil => rfl
  | cons call calls ih =>
      have hall := (sendPacket_front (h call List.mem_cons_self) call.results).2
        (hsent call List.mem_cons_self)
      rw [stream, List.map_cons, List.flatten_cons, if_pos (hsent call List.mem_cons_self), hall,
        ih (fun c hc => h c (List.mem_cons_of_mem _ hc))
          fun c hc => hsent c (List.mem_cons_of_mem _ hc)]

/-! ## what is received -/

section Receiving

variable {buffer : List UInt8} {pieces : List (List UInt8)}

theorem receiveByte_some (len : Nat) (h : len ≤ pieces.flatten.length) :
    ∃ left, receiveByte len pieces = some (pieces.flatten.take len, left) ∧
      left.flatten = pieces.flatten.drop len := by
  have heq := receiveByte_eq (pieces.flatten.take len) (List.take_append_drop len _).symm
  rwa [List.length_take_of_le h] at heq

theorem receiveByte_none (len : Nat) (h : pieces.flatten.length < len) :
    receiveByte len pieces = none := by
  fun_induction receiveByte len pieces with
  | case1 => exact absurd h (Nat.not_lt_zero _)
  | case2 => rfl
  | case3 len piece pieces hlt =>
      rw [List.flatten_cons, List.length_append] at h
      omega
  | case4 len piece pieces hge ih =>
      rw [List.flatten_cons, List.length_append] at h
      rw [ih (by omega), Option.map_none]

/-- A header that has come in lies in front of the buffer and is read from there. -/
theorem header_in_front {s : List UInt8} (hbuffer : kClientBufferSize ≤ buffer.length)
    (hlong : 4 ≤ s.length) :
    patch buffer 0 (s.take 4) = some (s.take 4 ++ buffer.drop 4) ∧
      (PacketHeader.ofBytes (s.take 4 ++ buffer.drop 4)).size.toNat = packets.size s ∧
      (s.take 4 ++ buffer.drop 4).length = buffer.length := by
  have hlarge : 65536 ≤ buffer.length := hbuffer
  have h4 : (s.take 4).length = 4 := List.length_take_of_le hlong
  refine ⟨?_, ?_, ?_⟩
  · rw [patch, if_pos (by omega), List.take_zero, List.nil_append, h4, Nat.zero_add]
  · rw [PacketHeader.ofBytes_append _ h4.ge, ofBytes_take hlong, packets_size]
  · rw [List.length_append, h4, List.length_drop]
    omega

/-- And the rest of the packet behind it. -/
theorem patch_body {header body : List UInt8} (h4 : header.length = 4)
    (hfit : 4 + body.length ≤ buffer.length) :
    patch (header ++ buffer.drop 4) PacketHeader.sizeOf body =
      some (header ++ body ++ buffer.drop (header ++ body).length) := by
  have hlen : (header ++ buffer.drop 4).length = buffer.length := by
    rw [List.length_append, h4, List.length_drop]
    omega
  rw [PacketHeader.sizeOf, patch, if_pos (by rw [hlen]; exact hfit), List.take_left' h4,
    ← List.drop_drop, List.drop_left' h4, List.drop_drop, List.length_append, h4]

theorem size_lt (s : List UInt8) : packets.size s < 65536 := (PacketHeader.ofBytes s).size.toNat_lt

/-- What a call makes of a stream: the first packet, if it has arrived; else `nullptr`. -/
inductive First (buffer s : List UInt8) :
    Except Fault (Option (List UInt8 × List (List UInt8))) → Prop where
  | packet {packet : List UInt8} {left : List (List UInt8)} : packets.Whole packet →
      s = packet ++ left.flatten →
      First buffer s (.ok (some (packet ++ buffer.drop packet.length, left)))
  | none : (packets.cut s).frames = [] → First buffer s (.ok none)

/-- The older client takes the first packet of any stream. -/
theorem Legacy.receivePacket_first (hbuffer : kClientBufferSize ≤ buffer.length) :
    First buffer pieces.flatten (receivePacket buffer pieces) := by
  have hsizeOf : PacketHeader.sizeOf = 4 := rfl
  have hlarge : 65536 ≤ buffer.length := hbuffer
  have hlt := size_lt pieces.flatten
  by_cases hshort : pieces.flatten.length < 4
  · rw [receivePacket, receiveByte_none PacketHeader.sizeOf hshort]
    exact .none (by rw [packets.cut_short hshort])
  rw [Nat.not_lt] at hshort
  obtain ⟨left, hheader, hleft⟩ := receiveByte_some PacketHeader.sizeOf hshort
  obtain ⟨hfront, hread, hlen⟩ := header_in_front hbuffer hshort
  rw [hsizeOf] at hheader hleft
  simp only [receivePacket, hheader, hsizeOf, hfront, Prog.orFault_some, bind, Except.bind, hread,
    hlen]
  by_cases hbad : packets.size pieces.flatten < 4
  · rw [if_pos (.inl hbad)]
    exact .none (by rw [packets.cut_malformed hshort hbad])
  rw [if_neg (by omega)]
  rw [Nat.not_lt] at hbad
  by_cases hpart : pieces.flatten.length < packets.size pieces.flatten
  · rw [receiveByte_none _ (by rw [hleft, List.length_drop]; omega)]
    exact .none (by rw [packets.cut_incomplete hshort hbad hpart])
  rw [Nat.not_lt] at hpart
  obtain ⟨left', hbody, hleft'⟩ := receiveByte_some (packets.size pieces.flatten - 4)
    (show _ ≤ left.flatten.length by rw [hleft, List.length_drop]; omega)
  -- the header and the body are the first packet
  have hpacket : pieces.flatten.take 4 ++ left.flatten.take (packets.size pieces.flatten - 4) =
      pieces.flatten.take (packets.size pieces.flatten) := by
    rw [hleft, ← List.take_add, Nat.add_sub_cancel' hbad]
  have hrest : left'.flatten = pieces.flatten.drop (packets.size pieces.flatten) := by
    rw [hleft', hleft, List.drop_drop, Nat.add_sub_cancel' hbad]
  have hpatch := patch_body (List.length_take_of_le hshort) (show 4 +
    (left.flatten.take (packets.size pieces.flatten - 4)).length ≤ buffer.length by
      rw [List.length_take]
      omega)
  rw [hsizeOf] at hpatch
  simp only [hbody, hpatch, Prog.orFault_some, hpacket]
  exact .packet (packets.whole_take hbad hpart) (by rw [hrest, List.take_append_drop])

/-- The client of the tests does not look at the size; where the header is good, that makes no
difference. -/
theorem receivePacket_eq_legacy (hbuffer : kClientBufferSize ≤ buffer.length)
    (hgood : (packets.cut pieces.flatten).malformed = false) :
    receivePacket buffer pieces = Legacy.receivePacket buffer pieces := by
  have hsizeOf : PacketHeader.sizeOf = 4 := rfl
  have hlarge : 65536 ≤ buffer.length := hbuffer
  have hlt := size_lt pieces.flatten
  by_cases hshort : pieces.flatten.length < 4
  · rw [receivePacket, Legacy.receivePacket, receiveByte_none PacketHeader.sizeOf hshort]
  rw [Nat.not_lt] at hshort
  obtain ⟨left, hheader, -⟩ := receiveByte_some PacketHeader.sizeOf hshort
  obtain ⟨hfront, hread, hlen⟩ := header_in_front hbuffer hshort
  have hsize : ¬ packets.size pieces.flatten < 4 := fun hbad => by
    rw [packets.cut_malformed hshort hbad] at hgood
    cases hgood
  rw [hsizeOf] at hheader
  simp only [receivePacket, Legacy.receivePacket, hheader, hsizeOf, hfront, Prog.orFault_some, bind,
    Except.bind, hread, hlen]
  split_ifs with hsmall
  · omega
  · cases receiveByte (packets.size pieces.flatten - 4) left <;> rfl

/-- The buffer is as long as before, and the packet is the front of it. -/
theorem front_packet (h : packets.Whole packet) (hbuffer : kClientBufferSize ≤ buffer.length) :
    kClientBufferSize ≤ (packet ++ buffer.drop packet.length).length ∧
      (packet ++ buffer.drop packet.length).take
        (packets.size (packet ++ buffer.drop packet.length)) = packet := by
  have hlt := size_lt packet
  rw [h.2] at hlt
  have hlarge : 65536 ≤ buffer.length := hbuffer
  refine ⟨?_, ?_⟩
  · rw [List.length_append, List.length_drop, kClientBufferSize]
    omega
  · rw [packets.size_append packet _ h.1, h.2, List.take_left]

/-- Calls that each take the first packet return one packet of the stream after the other. -/
theorem receivePackets_eq {receive : List UInt8 → List (List UInt8) →
      Except Fault (Option (List UInt8 × List (List UInt8)))} (good : List UInt8 → Prop)
    (hfirst : ∀ buffer pieces, kClientBufferSize ≤ buffer.length → good pieces.flatten →
      First buffer pieces.flatten (receive buffer pieces))
    (hgood : ∀ packet s, packets.Whole packet → good (packet ++ s) → good s) (n : Nat)
    (hbuffer : kClientBufferSize ≤ buffer.length) (hpieces : good pieces.flatten) :
    receivePackets receive n buffer pieces =
      .ok ((packets.cut pieces.flatten).frames.take n) := by
  induction n generalizing buffer pieces with
  | zero => rw [receivePackets, List.take_zero]
  | succ n ih =>
      have hreceive := hfirst buffer pieces hbuffer hpieces
      rw [receivePackets]
      generalize receive buffer pieces = r at hreceive
      cases hreceive with
      | none hnil =>
          rw [hnil, List.take_nil]
          rfl
      | @packet packet left hwhole hstream =>
          obtain ⟨hlen, htake⟩ := front_packet hwhole hbuffer
          rw [hstream] at hpieces ⊢
          have hrest := ih hlen (hgood _ _ hwhole hpieces)
          simp only [bind, Except.bind, hrest, htake, hwhole.cut_append, List.take_succ_cons]

end Receiving

section Streams

variable {buffer : List UInt8} {pieces : List (List UInt8)}

theorem Legacy.receivePackets_cut (n : Nat) (hbuffer : kClientBufferSize ≤ buffer.length) :
    receivePackets Legacy.receivePacket n buffer pieces =
      .ok ((packets.cut pieces.flatten).frames.take n) :=
  receivePackets_eq (fun _ => True) (fun _ _ hlen _ => receivePacket_first hlen)
    (fun _ _ _ _ => trivial) n hbuffer trivial

theorem receivePackets_whole (n : Nat) (hbuffer : kClientBufferSize ≤ buffer.length)
    (hgood : (packets.cut pieces.flatten).malformed = false) :
    receivePackets receivePacket n buffer pieces =
      .ok ((packets.cut pieces.flatten).frames.take n) := by
  refine receivePackets_eq (fun s => (packets.cut s).malformed = false)
    (fun buffer pieces hlen hs => ?_) (fun packet s hwhole hs => ?_) n hbuffer hgood
  · rw [receivePacket_eq_legacy hlen hs]
    exact Legacy.receivePacket_first hlen
  · rwa [hwhole.cut_append] at hs

/-! ## a thread of the older client -/

/-- So many copies of a packet. -/
def copies (packet : List UInt8) (n : Nat) : List UInt8 := (List.replicate n packet).flatten

theorem copies_succ (packet : List UInt8) (n : Nat) :
    copies packet (n + 1) = packet ++ copies packet n := by
  rw [copies, List.replicate_succ, List.flatten_cons, copies]

/-- A thread that sends and receives by turns: it is given the packets of the stream one after the
other, and has sent one packet more than that at most. -/
structure Legacy.TakesTurns (chatPacket : List UInt8) (rounds : Nat) (frames : List (List UInt8))
    (t : Talk) : Prop where
  received : t.received <+: frames
  length : t.received.length ≤ rounds
  sent : copies chatPacket t.received.length <+: t.sent
  ahead : t.sent <+: copies chatPacket (min rounds (t.received.length + 1))
  handled : ∀ packet ∈ t.received.dropLast, handlePacket packet = true

/-- A turn of it, before others. -/
theorem Legacy.TakesTurns.turn {chatPacket packet : List UInt8} {rounds : Nat}
    {frames : List (List UInt8)} {t : Talk} (h : TakesTurns chatPacket rounds frames t)
    (hhandled : handlePacket packet = true) :
    TakesTurns chatPacket (rounds + 1) (packet :: frames)
      ⟨chatPacket ++ t.sent, packet :: t.received⟩ where
  received := (List.prefix_cons_inj packet).mpr h.received
  length := Nat.succ_le_succ h.length
  sent := by
    rw [List.length_cons, copies_succ]
    exact (List.prefix_append_right_inj _).mpr h.sent
  ahead := by
    rw [List.length_cons, Nat.succ_min_succ, copies_succ]
    exact (List.prefix_append_right_inj _).mpr h.ahead
  handled p hmem := by
    by_cases hnil : t.received = []
    · rw [hnil, List.dropLast_singleton] at hmem
      exact absurd hmem List.not_mem_nil
    · rw [List.dropLast_cons_of_ne_nil hnil] at hmem
      rcases List.mem_cons.mp hmem with rfl | hmem
      · exact hhandled
      · exact h.handled p hmem

/-- The last one, which brings a packet that is not handled. -/
theorem Legacy.TakesTurns.last (chatPacket packet : List UInt8) (rounds : Nat)
    (frames : List (List UInt8)) :
    TakesTurns chatPacket (rounds + 1) (packet :: frames) ⟨chatPacket, [packet]⟩ where
  received := (List.prefix_cons_inj packet).mpr List.nil_prefix
  length := Nat.succ_le_succ (Nat.zero_le _)
  sent := by rw [List.length_singleton, copies_succ, copies, List.replicate_zero,
    List.flatten_nil, List.append_nil]
  ahead := by
    rw [Nat.succ_min_succ, copies_succ]
    exact List.prefix_append _ _
  handled p hmem := absurd hmem List.not_mem_nil

/-- **By turns.**  Whatever the server sends, in whatever pieces, and whatever `send` returns. -/
theorem Legacy.threadFunc_takes_turns {chatPacket : List UInt8} (hchat : packets.Whole chatPacket)
    (turns : List (List (Option Nat))) (hbuffer : kClientBufferSize ≤ buffer.length) :
    ∃ t, threadFunc chatPacket turns buffer pieces = .ok t ∧
      TakesTurns chatPacket turns.length (packets.cut pieces.flatten).frames t := by
  induction turns generalizing buffer pieces with
  | nil =>
      exact ⟨_, rfl, List.nil_prefix, Nat.zero_le _, List.prefix_rfl, List.nil_prefix,
        fun _ hmem => absurd hmem List.not_mem_nil⟩
  | cons results turns ih =>
      obtain ⟨hfront, hall⟩ := sendPacket_front hchat results
      -- nothing is received in this turn
      have hstop : TakesTurns chatPacket (turns.length + 1) (packets.cut pieces.flatten).frames
          ⟨(sendPacket chatPacket results).1, []⟩ := by
        refine ⟨List.nil_prefix, Nat.zero_le _, List.nil_prefix, ?_,
          fun _ hmem => absurd hmem List.not_mem_nil⟩
        rw [List.length_nil, Nat.succ_min_succ, copies_succ]
        exact hfront.trans (List.prefix_append _ _)
      rw [threadFunc, List.length_cons]
      by_cases hsent : (sendPacket chatPacket results).2 = some true
      · have hreceive : First buffer pieces.flatten (receivePacket buffer pieces) :=
          receivePacket_first hbuffer
        rw [if_neg (not_not_intro hsent)]
        generalize receivePacket buffer pieces = r at hreceive
        cases hreceive with
        | none => exact ⟨_, rfl, hstop⟩
        | @packet packet left hwhole hstream =>
            obtain ⟨hlen, htake⟩ := front_packet hwhole hbuffer
            rw [hstream, hwhole.cut_append]
            simp only [bind, Except.bind, htake, hall hsent]
            by_cases hhandled : handlePacket packet = true
            · obtain ⟨rest, hrest, htalk⟩ := @ih _ left hlen
              simp only [hhandled, Bool.not_true, Bool.false_eq_true, ↓reduceIte, hrest]
              exact ⟨_, rfl, htalk.turn hhandled⟩
            · rw [if_pos (by simp [hhandled])]
              exact ⟨_, rfl, .last _ _ _ _⟩
      · rw [if_pos hsent]
        exact ⟨_, rfl, hstop⟩

/-- Of three turns the first is answered by a move, and nothing comes after that. -/
theorem Legacy.threadFunc_takes_turns_move :
    ∃ t, threadFunc [6, 0, 2, 0, 104, 105] [[some 6], [some 1, some 5], []]
        (List.replicate kClientBufferSize 0) [[4, 0, 1], [0, 20]] = .ok t ∧
      TakesTurns [6, 0, 2, 0, 104, 105] 3 (packets.cut [4, 0, 1, 0, 20]).frames t :=
  threadFunc_takes_turns ⟨by decide, by decide⟩ [[some 6], [some 1, some 5], []]
    (List.length_replicate).ge

end Streams

end Client

end ServerStudy
