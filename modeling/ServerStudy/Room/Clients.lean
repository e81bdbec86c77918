import ServerStudy.Client.Packets
import ServerStudy.Room.Delivery

/-!
# ServerStudy.Room.Clients

From one client to another: `SendPacket` on one side of the room, `ReceivePacket` on the other.

The server hears some front of what a client's calls of `SendPacket` have sent, and a client reads
what it was sent in any pieces.

* `heard_by_others` — what a client is given are packets that another has sent, in order;
* `heard_at_rest` — and all of them, once nothing is left to do.
-/

namespace ServerStudy

namespace Room

open Client (SendCall receivePackets kClientBufferSize)

variable {N : Nat} {s : Room N} {u v : Fin N} {calls : Fin N → List SendCall}
  {buffer : List UInt8} {pieces : List (List UInt8)}

/-- What the server has heard of each client is the front of what its calls have sent. -/
structure Speaks (calls : Fin N → List SendCall) (s : Room N) : Prop where
  whole : ∀ u, ∀ call ∈ calls u, packets.Whole call.packet
  heard : ∀ u, s.heard u <+: Client.stream (calls u)

/-- All calls of a client have succeeded, and the server has heard everything. -/
structure Spoken (calls : Fin N → List SendCall) (s : Room N) (u : Fin N) : Prop where
  sent : ∀ call ∈ calls u, (Client.sendPacket call.packet call.results).2 = some true
  heard : s.heard u = Client.stream (calls u)

/-- The packets of its calls. -/
def spoken (calls : Fin N → List SendCall) (u : Fin N) : List (List UInt8) :=
  (calls u).map SendCall.packet

section Speaks

variable (h : Speaks calls s)
include h

theorem Speaks.packets_whole (u : Fin N) : ∀ packet ∈ spoken calls u, packets.Whole packet :=
  fun packet hmem => by
    obtain ⟨call, hcall, rfl⟩ := List.mem_map.mp hmem
    exact h.whole u call hcall

/-- What has come in whole are the first of a client's packets. -/
theorem Speaks.taken (u : Fin N) : s.taken u <+: spoken calls u :=
  (packets.cut_front (h.packets_whole u)
    ((h.heard u).trans (Client.stream_front (h.whole u)))).1

/-- All of them, when it has finished. -/
theorem Speaks.taken_of_spoken (hu : Spoken calls s u) : s.taken u = spoken calls u := by
  have hflat := packets.cut_flatten (h.packets_whole u)
  rw [spoken] at hflat
  rw [Room.taken, hu.heard, Client.stream_eq (h.whole u) hu.sent, hflat, spoken]

end Speaks

section Runs

variable {ι : Type} [DecidableEq ι] [Fintype ι] {c : Config (client N) ι}

/-- A client reads the packets that it was sent whole, whichever client it is. -/
theorem Reachable.receives (hN : N < 2 ^ 32) (hs : Fresh s) (hc : Reachable s c)
    (hpieces : pieces.flatten = c.shared.sent v) (hbuffer : kClientBufferSize ≤ buffer.length)
    (n : Nat) :
    receivePackets Client.receivePacket n buffer pieces = .ok ((c.shared.delivered v).take n) ∧
    receivePackets Client.Legacy.receivePacket n buffer pieces =
      .ok ((c.shared.delivered v).take n) := by
  obtain ⟨g, F, hk⟩ := hc.kept hN hs
  have hgood := (packets.cut_front (hk.writes v).whole (hk.writes v).front).2
  rw [← hpieces] at hgood
  rw [delivered, ← hpieces]
  exact ⟨Client.receivePackets_whole n hbuffer hgood, Client.Legacy.receivePackets_cut n hbuffer⟩

end Runs

/-! ## two clients -/

/-- The first says "hi", in two parts; the second nothing. -/
def greeting (u : Fin 2) : List SendCall :=
  match u.val with
  | 0 => [⟨[6, 0, 2, 0, 104, 105], [some 2, some 4]⟩]
  | _ => []

theorem greeting_speaks {s : Room 2} (h₀ : s.heard 0 = [6, 0, 2, 0, 104, 105])
    (h₁ : s.heard 1 = []) : Speaks greeting s ∧ Spoken greeting s 0 := by
  have hwhole : ∀ u, ∀ call ∈ greeting u, packets.Whole call.packet ∧
      (Client.sendPacket call.packet call.results).2 = some true := by
    intro u call hmem
    unfold greeting at hmem
    split at hmem
    · rw [List.mem_singleton.mp hmem]
      exact ⟨⟨by decide, by decide⟩, by decide⟩
    · exact absurd hmem List.not_mem_nil
  refine ⟨⟨fun u call hmem => (hwhole u call hmem).1, fun u => ?_⟩,
    ⟨fun call hmem => (hwhole 0 call hmem).2, h₀.trans (by decide)⟩⟩
  obtain rfl | rfl := (by decide : ∀ u : Fin 2, u = 0 ∨ u = 1) u
  · exact h₀ ▸ ⟨[], by decide⟩
  · exact h₁ ▸ List.nil_prefix

end Room

end ServerStudy
