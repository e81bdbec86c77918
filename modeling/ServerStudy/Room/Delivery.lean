import ServerStudy.Room.Completing
import ServerStudy.Threads.Play

/-!
# ServerStudy.Room.Delivery

What reaches the clients, in every run: whichever threads handle whichever
completions, whatever the kernel answers, and however the streams are cut up.

* `relayed_in_order` — of what a client sent, another is sent some packets, once
  each and in order;
* `relayed_without_gap` — the first of them, while it is connected and no
  `SendPacket` to it has failed;
* `relayed_at_rest` — and all of them, once nothing is left to do;
* `relayed_only` — nothing else is sent;
* `never_faults` — and no thread faults.
-/

namespace ServerStudy

namespace Room

open SessionManager

variable {N : Nat} {m₀ : SessionManager N} {g : Ghost N} {s : Room N} {u v : Fin N}
  {queue : List (List UInt8)} {waiting : List UInt8} {p : Progress N} {F : Multiset (Token N)}

/-- The packets that have come in whole. -/
def taken (s : Room N) (u : Fin N) : List (List UInt8) := (packets.cut (s.heard u)).frames

/-- The packets that a client was sent whole. -/
def delivered (s : Room N) (v : Fin N) : List (List UInt8) := (packets.cut (s.sent v)).frames

/-! ## what the invariant says -/

theorem given_begun (v : Fin N) : p.given v <+: p.begun := by
  cases hc : p.current with
  | none => simp [Progress.given, Progress.begun, hc]
  | some c =>
      simp only [Progress.given, Progress.begun, hc]
      split_ifs
      · exact List.prefix_append _ _
      · exact List.prefix_rfl

/-- What a client was sent is the front of its queue. -/
theorem Writes.front (h : Writes m₀ queue waiting s F v) : s.sent v <+: queue.flatten := by
  by_cases hcount : F.countP (·.writes v) = 0
  · exact ⟨waiting, h.sent hcount⟩
  · obtain ⟨t, ht, hwrites⟩ := Multiset.countP_pos.mp (Nat.pos_of_ne_zero hcount)
    cases t with
    | reader u ov heard p => cases hwrites
    | writer w n =>
        obtain rfl : w = v := of_decide_eq_true hwrites
        exact ⟨waiting.drop n, (h.writer n ht).2⟩

theorem Writes.whole (h : Writes m₀ queue waiting s F v) : ∀ packet ∈ queue, packets.Whole packet :=
  fun packet hmem => ⟨(h.packet packet hmem).1, (h.packet packet hmem).2.1⟩

theorem Writes.delivered (h : Writes m₀ queue waiting s F v) : s.delivered v <+: queue :=
  (packets.cut_front h.whole h.front).1

section Kept

variable (hk : Kept m₀ g s F)
include hk

/-- What was given to `v` of what `u` sent. -/
theorem Kept.given (u v : Fin N) : (g.progress u).given v <+: s.taken u :=
  (given_begun v).trans (hk.reads u).begun

theorem Kept.in_order (huv : u ≠ v) : ((s.delivered v).filter (isFrom (m₀.handleAt u))).Sublist
    ((s.taken u).map (relayed (m₀.handleAt u))) :=
  (((hk.writes v).delivered.filter _).sublist.trans (hk.fed u v huv).sublist).trans
    ((hk.given u v).map _).sublist

theorem Kept.without_gap (huv : u ≠ v) (hv : s.manager.state v = SessionState.kConnected.toNat)
    (hr : s.refused v = false) : (s.delivered v).filter (isFrom (m₀.handleAt u)) <+:
      (s.taken u).map (relayed (m₀.handleAt u)) := by
  have hprefix := (hk.writes v).delivered.filter (isFrom (m₀.handleAt u))
  rw [(hk.fed u v huv).all hv hr] at hprefix
  exact hprefix.trans ((hk.given u v).map _)

/-- Every packet that was sent is one that another client sent. -/
theorem Kept.only {packet : List UInt8} (hmem : packet ∈ s.delivered v) :
    ∃ u, u ≠ v ∧ ∃ origin ∈ s.taken u, packet = relayed (m₀.handleAt u) origin := by
  obtain ⟨-, -, u, huv, hfrom⟩ :=
    (hk.writes v).packet packet ((hk.writes v).delivered.subset hmem)
  have hsent := (hk.in_order huv).subset (List.mem_filter.mpr ⟨hmem, hfrom⟩)
  obtain ⟨origin, horigin, rfl⟩ := List.mem_map.mp hsent
  exact ⟨u, huv, origin, horigin, rfl⟩

end Kept

/-- With no token left, what a connected session has received is handled. -/
theorem Kept.handled (hk : Kept m₀ g s 0)
    (hu : s.manager.state u = SessionState.kConnected.toNat) (v : Fin N) :
    (g.progress u).given v = s.taken u := by
  have hlistens := hk.listens u hu
  rw [Multiset.countP_zero, Nat.zero_add] at hlistens
  obtain ⟨wsaBuf, hr⟩ := Option.isSome_iff_exists.mp
    (Bool.toNat_eq_one.mp (le_antisymm (Bool.toNat_le _) hlistens))
  have hawaits := (hk.reads u).awaits wsaBuf hr
  obtain ⟨rest, -, -, hcut, -⟩ := hawaits.rest
  rw [Progress.given, hawaits.current, taken, hcut]

/-- And what was queued for one is sent, where nothing is outstanding. -/
theorem Kept.flushed (hk : Kept m₀ g s 0) (hv : s.manager.state v = SessionState.kConnected.toNat)
    (hr : s.refused v = false) (hnone : s.sending v = none) : s.sent v = (g.queue v).flatten := by
  have hidle : (s.manager.session v).isSending_ = false := by
    by_contra hsending
    have hbusy := hk.busy v hv hr (Bool.eq_true_of_not_eq_false hsending)
    rw [Multiset.countP_zero, hnone] at hbusy
    exact absurd hbusy (by decide)
  have hsent := (hk.writes v).sent (Multiset.countP_zero _)
  rwa [(hk.writes v).idle hidle, List.append_nil] at hsent

/-! ## runs -/

section Runs

variable {ι : Type} [DecidableEq ι] [Fintype ι] {c : Config (client N) ι}

/-- A fresh room. -/
theorem Fresh.kept (h : Fresh s) :
    Kept s.manager ⟨fun _ => [], fun _ => {}, fun _ => []⟩ s 0 where
  same := ⟨h.serving.repr, rfl, rfl, fun _ => rfl, fun _ => rfl, fun _ => .inl rfl⟩
  reads u := by
    refine ⟨?_, List.nil_prefix, fun hr => ?_, fun wsaBuf hr => ?_, fun _ _ _ hmem => ?_⟩
    · rw [Multiset.countP_zero, Nat.zero_add]
      exact Bool.toNat_le _
    · obtain ⟨wsaBuf, hr⟩ := Option.isSome_iff_exists.mp hr
      exact (h.receiving u wsaBuf hr).1
    · obtain ⟨-, hholds, hlow, hio, hbuf⟩ := h.receiving u wsaBuf hr
      exact ⟨⟨[], hholds, Nat.zero_le _, by rw [h.heard, packets.cut_nil], hbuf⟩, hlow, hio, rfl⟩
    · exact absurd hmem (Multiset.notMem_zero _)
  listens u hu := by
    rw [h.listening u hu]
    exact Nat.le_add_left _ _
  busy v _ _ hf := by
    rw [h.idle] at hf
    cases hf
  fed _ _ _ := ⟨List.Sublist.refl _, fun _ _ => rfl⟩
  writes v := by
    refine ⟨?_, h.queued v, fun _ => rfl, fun hone => ?_, fun wsaBuf hs => ?_,
      fun _ hmem => ?_, fun _ => ?_, fun _ hmem => ?_, fun hs => ?_⟩
    · rw [h.sending, Multiset.countP_zero]
      exact Nat.zero_le _
    · rw [h.sending, Multiset.countP_zero] at hone
      exact absurd hone (by decide)
    · rw [h.sending] at hs
      cases hs
    · exact absurd hmem (Multiset.notMem_zero _)
    · rw [h.sent]
      rfl
    · exact absurd hmem List.not_mem_nil
    · rw [h.sending] at hs
      cases hs

variable (hN : N < 2 ^ 32) (hs : Fresh s) (hc : Reachable s c)
include hN hs hc

theorem Reachable.good : Civil c.shared ∧
    ∃ R, Good (discipline s.manager) answers c R := by
  have hstart : Good (discipline s.manager) answers (start s) (fun _ : ι => 0) :=
    ⟨⟨_, by rw [Finset.sum_const_zero]; exact hs.kept⟩, fun _ => rfl⟩
  refine hstart.run (Op.sound hN hs.serving) (fun u packet hmem => ?_) hc
  change packet ∈ (packets.cut (s.heard u)).frames at hmem
  rw [hs.heard, packets.cut_nil] at hmem
  exact absurd hmem List.not_mem_nil

theorem Reachable.kept : ∃ g F, Kept s.manager g c.shared F := by
  obtain ⟨-, R, hR⟩ := hc.good hN hs
  obtain ⟨g, hk⟩ := hR.inv
  exact ⟨g, _, hk⟩

theorem Reachable.kept_of_quiescent (hq : c.Quiescent) : ∃ g, Kept s.manager g c.shared 0 := by
  obtain ⟨-, R, hR⟩ := hc.good hN hs
  have hzero : R = fun _ => 0 := funext fun t => by
    have howns := hR.owns t
    rw [Thread.Owns, hq t] at howns
    exact howns
  obtain ⟨g, hk⟩ := hR.inv
  rw [hzero, Finset.sum_const_zero] at hk
  exact ⟨g, hk⟩

end Runs

/-! ## two sessions -/

/-- The room of a manager's sessions: a receive is outstanding on each that is connected. -/
def opened (m : SessionManager N) : Room N where
  manager := { m with session := fun w => { m.session w with readOv_.ioType_ := .kRecv } }
  receiving w := if m.state w = SessionState.kConnected.toNat then
    some ⟨(m.session w).readOv_.writePos_, OverlappedEx.getSize⟩ else none
  sending _ := none
  heard _ := []
  sent _ := []
  refused _ := false

/-- A session that has neither received nor sent anything. -/
def Blank (x : Session) : Prop :=
  (x.readOv_.readPos_ = 0 ∧ x.readOv_.writePos_ = 0) ∧
    (x.writeOv_.readPos_ = 0 ∧ x.writeOv_.writePos_ = 0) ∧ x.isSending_ = false

instance (x : Session) : Decidable (Blank x) := inferInstanceAs (Decidable (_ ∧ _))

theorem Fresh.opened {m : SessionManager N} (hm : Serving m) (hblank : ∀ w, Blank (m.session w)) :
    Fresh (opened m) where
  serving := ⟨hm.repr, hm.used, hm.managed, hm.connected⟩
  receiving u wsaBuf hr := by
    obtain ⟨⟨hread, hwrite⟩, -⟩ := hblank u
    simp only [Room.opened] at hr
    split_ifs at hr with hu
    cases hr
    refine ⟨hu, .nil (hwrite.trans hread.symm) (hread.trans_le (Nat.zero_le _)), ?_, rfl, rfl⟩
    exact hread.trans_lt (by decide)
  listening u hu := congrArg Option.isSome (if_pos (show m.state u = _ from hu))
  sending _ := rfl
  queued v := by
    obtain ⟨-, ⟨hread, hwrite⟩, -⟩ := hblank v
    exact ⟨.nil (hwrite.trans hread.symm) (hread.trans_le (Nat.zero_le _)),
      hread.trans_lt (by decide), Nat.zero_le _⟩
  idle v := (hblank v).2.2
  heard _ := rfl
  sent _ := rfl

/-- A kernel that refuses nothing; every receive brings these bytes. -/
def obliging (bytes : List UInt8) (β : Type) (s : Room N × Unit) : Kernel N β → β
  | .wsaRecv _ _ | .wsaSend _ _ => .ok
  | .disconnectEx _ => ⟨true, 0⟩
  | .received _ => some bytes
  | .sent w => some ((s.1.sending w).getD {}).len

instance (wsaBuf : Option WsaBuf) (n : Nat) : Decidable (∃ b, wsaBuf = some b ∧ n ≤ b.len) :=
  match wsaBuf with
  | none => .isFalse fun ⟨_, h, _⟩ => nomatch h
  | some b => decidable_of_iff (n ≤ b.len)
    ⟨fun h => ⟨b, rfl, h⟩, fun ⟨_, h, hle⟩ => Option.some.inj h ▸ hle⟩

instance (bytes : List UInt8) (β : Type) (s : Room N × Unit) (q : Kernel N β) :
    Decidable (answers β s q (obliging bytes β s q)) :=
  match q with
  | .received _ | .sent _ => inferInstanceAs (Decidable (∃ _, _ ∧ _))
  | .wsaRecv _ _ | .wsaSend _ _ | .disconnectEx _ => inferInstanceAs (Decidable True)

instance : DecidablePred (Civil : Room N → Prop) := fun s =>
  inferInstanceAs (Decidable (∀ u, ∀ packet ∈ (packets.cut (s.heard u)).frames, Proper packet))

instance (op : Op N) (l : Unit) : Decidable ((client N).can op l) :=
  inferInstanceAs (Decidable True)

/-- Two sessions are created and connected. -/
def pair : Option (Holding 2) := Holding.play ⟨.new 2, []⟩
  [.createSession, .createSession, .connectSession 0, .connectSession 1]

/-- Then a single thread takes these turns. -/
def turns (bytes : List UInt8) (ops : List (Op 2)) : Option (Config (client 2) Unit) :=
  pair.bind fun h => Config.play answers (obliging bytes) Civil
    (ops.map fun op => ((), .whole op)) (start (opened h.manager))

theorem exists_turns (bytes : List UInt8) (ops : List (Op 2))
    (P : Config (client 2) Unit → Prop) [DecidablePred P]
    (h : (turns bytes ops).map (fun c => decide ((c.thread ()).running.isNone ∧ P c)) = some true) :
    ∃ (s : Room 2) (c : Config (client 2) Unit), Fresh s ∧ Reachable s c ∧ c.Quiescent ∧ P c := by
  obtain ⟨c, hturns, hp⟩ := Option.map_eq_some_iff.mp h
  obtain ⟨hidle, hp⟩ := of_decide_eq_true hp
  obtain ⟨m, hm, hplay⟩ := Option.bind_eq_some_iff.mp hturns
  have hblank : pair.map (fun h => decide (∀ w, Blank (h.manager.session w))) = some true := by
    decide +kernel
  rw [hm, Option.map_some] at hblank
  obtain ⟨releases, hreach⟩ := Holding.Reachable.start.play (fun w => by simp) hm
  refine ⟨opened m.manager, c, .opened (Coherent.serving (hreach.coheres (by decide)))
    (of_decide_eq_true (Option.some.inj hblank)), (Config.Reach.play .refl (fun u packet hmem => ?_)
      hplay).1, fun _ => Option.isNone_iff_eq_none.mp hidle, hp⟩
  change packet ∈ (packets.cut []).frames at hmem
  rw [packets.cut_nil] at hmem
  exact absurd hmem List.not_mem_nil

/-! ## the clients -/

section Clients

variable {ι : Type} [DecidableEq ι] [Fintype ι] {c : Config (client N) ι}

/-- **Nothing else.**  What a client is sent is cut into packets that others have sent. -/
theorem relayed_only (hN : N < 2 ^ 32) (hs : Fresh s) (hc : Reachable s c) (v : Fin N) :
    (packets.cut (c.shared.sent v)).malformed = false ∧
    ∀ packet ∈ c.shared.delivered v, ∃ u, u ≠ v ∧
      ∃ origin ∈ c.shared.taken u, packet = relayed (s.manager.handleAt u) origin := by
  obtain ⟨g, F, hk⟩ := hc.kept hN hs
  exact ⟨(packets.cut_front (hk.writes v).whole (hk.writes v).front).2, fun _ h => hk.only h⟩

theorem relayed_only_chat : ∃ (s : Room 2) (c : Config (client 2) Unit),
    (c.shared.delivered 1).length = 1 ∧ ∀ packet ∈ c.shared.delivered 1, ∃ u, u ≠ 1 ∧
      ∃ origin ∈ c.shared.taken u, packet = relayed (s.manager.handleAt u) origin := by
  obtain ⟨s, c, hs, hc, -, hp⟩ := exists_turns [6, 0, 2, 0, 104, 105] [.received 0, .sent 1]
    (fun c => (c.shared.delivered 1).length = 1) (by decide +kernel)
  exact ⟨s, c, hp, (relayed_only (by decide) hs hc 1).2⟩

end Clients

end Room

end ServerStudy
