import ServerStudy.Room.Sending

/-!
# ServerStudy.Room.Relaying

What a thread does with a packet: it takes a snapshot of the sessions that are
connected, and sends to one after the other.

* `Triple.viewOwn`, `Triple.updateOwn` — a reader and the buffer it owns;
* `Triple.broadcast` — every session of the snapshot is sent to once;
* `Triple.execute` — a proper packet is relayed.
-/

namespace ServerStudy

namespace Room

open SessionManager

variable {N : Nat} {m₀ : SessionManager N} {g : Ghost N} {s : Room N} {u v w : Fin N}
  {ov ov' : OverlappedEx} {heard packet rest : List UInt8} {p p' : Progress N}
  {F R r : Multiset (Token N)} {handled : List (List UInt8)} {α β : Type}

/-! ## reading -/

/-- What never changes can be read. -/
theorem Triple.read {f : Room N × Unit → α} {a : α}
    (hf : ∀ g s F, Civil s → Kept m₀ g s (r + F) → f (s, ()) = a) :
    Triple m₀ r (Prog.read f) (fun b r' => b = a ∧ r' = r) :=
  Triple.action fun g s F hc hk =>
    ⟨_, s, r, rfl, ⟨g, hk⟩, hf g s F hc hk, rfl⟩

/-- And viewed. -/
theorem Triple.view {f : Room N × Unit → Except Fault α} {a : α}
    (hf : ∀ g s F, Civil s → Kept m₀ g s (r + F) → f (s, ()) = .ok a) :
    Triple m₀ r (Prog.update fun s => (f s).map fun b => (b, s)) (fun b r' => b = a ∧ r' = r) :=
  Triple.action fun g s F hc hk =>
    ⟨a, s, r, by rw [hf g s F hc hk]; rfl, ⟨g, hk⟩, rfl, rfl⟩

section Own

variable (hm : Serving m₀) (hu : m₀.state u ≠ 0)
include hm hu

/-- What a reader may know of its session. -/
theorem Kept.session (hk : Kept m₀ g s F) : (s.manager.session u).handle_ = m₀.handleAt u ∧
    (s.manager.session u).sessionManager_ = true :=
  ⟨(hk.same.handle u).trans (hm.used u hu), (hk.same.managed u).trans (hm.managed u hu)⟩

/-- A reader reads its buffer, and what is fixed. -/
theorem Triple.viewOwn {f : Session → Except Fault α} {a : α}
    (hf : ∀ x : Session, x.readOv_ = ov → x.handle_ = m₀.handleAt u → x.sessionManager_ = true →
      f x = .ok a) :
    Triple m₀ {.reader u ov heard p} ((sessionLens (port N) u).view f)
      (fun b r => b = a ∧ r = {.reader u ov heard p}) :=
  Triple.view fun g s F _ hk => by
    rw [Multiset.singleton_add] at hk
    exact hf _ hk.owned.1 (hk.session hm hu).1 (hk.session hm hu).2

theorem Triple.readOwn {f : Session → α} {a : α}
    (hf : ∀ x : Session, x.readOv_ = ov → x.handle_ = m₀.handleAt u → f x = a) :
    Triple m₀ {.reader u ov heard p} ((sessionLens (port N) u).read f)
      (fun b r => b = a ∧ r = {.reader u ov heard p}) :=
  Triple.read fun g s F _ hk => by
    rw [Multiset.singleton_add] at hk
    exact hf _ hk.owned.1 (hk.session hm hu).1

end Own

/-- The packets that have come in are proper. -/
theorem Triple.readCivil {f : Session → α} {a : α} (hf : ∀ x : Session, x.readOv_ = ov → f x = a) :
    Triple m₀ {.reader u ov heard p} ((sessionLens (port N) u).read f)
      (fun b r => b = a ∧ (∀ packet ∈ (packets.cut heard).frames, Proper packet) ∧
        r = {.reader u ov heard p}) :=
  Triple.action fun g s F hcivil hk => by
    rw [Multiset.singleton_add] at hk
    have hproper := hcivil u
    rw [hk.owned.2.1] at hproper
    rw [← Multiset.singleton_add] at hk
    refine ⟨_, s, _, rfl, ⟨g, hk⟩, hf _ ?_, hproper, rfl⟩
    rw [Multiset.singleton_add] at hk
    exact hk.owned.1

/-- A reader changes its buffer, and may count a packet as handled that everybody was sent. -/
theorem Triple.updateOwn {f : Session → Except Fault (α × Session)} {a : α}
    (hf : ∀ x : Session, x.readOv_ = ov → ∃ y, f x = .ok (a, y) ∧ Beside x y ∧ y.readOv_ = ov')
    (hbegun : p'.begun = p.begun) (hgiven : ∀ v, v ≠ u → p'.given v = p.given v) :
    Triple m₀ {.reader u ov heard p} ((sessionLens (port N) u).update f)
      (fun b r => b = a ∧ r = {.reader u ov' heard p'}) :=
  Triple.action fun g s F _ hk => by
    rw [Multiset.singleton_add] at hk
    obtain ⟨hread, hheard, hp⟩ := hk.owned
    obtain ⟨y, hy, hbeside, hov⟩ := hf _ hread
    have hbegun' := (hk.reads u).begun
    rw [hp, hheard, ← hbegun] at hbegun'
    have hset := hk.setRead hbeside hbegun' fun v huv hfed => by
      rw [hgiven v (Ne.symm huv)]
      exact hfed
    rw [hov, ← Multiset.singleton_add] at hset
    refine ⟨a, s.setSession u y, _, ?_, ⟨_, hset⟩, rfl, rfl⟩
    show (f (s.manager.session u)).map _ = _
    rw [hy]
    rfl

/-- And nothing else. -/
theorem Triple.modifyOwn {f : Session → Session}
    (hf : ∀ x : Session, x.readOv_ = ov → Beside x (f x) ∧ (f x).readOv_ = ov')
    (hbegun : p'.begun = p.begun) (hgiven : ∀ v, v ≠ u → p'.given v = p.given v) :
    Triple m₀ {.reader u ov heard p} ((sessionLens (port N) u).modify f)
      (fun b r => b = () ∧ r = {.reader u ov' heard p'}) :=
  Triple.updateOwn (f := fun x => .ok ((), f x)) (fun x hx => ⟨_, rfl, hf x hx⟩) hbegun hgiven

/-- A reader goes on with its progress, without touching anything. -/
theorem Kept.progress {q : Progress N} (hk : Kept m₀ g s (.reader u ov heard p ::ₘ R))
    (hbegun : q.begun <+: (packets.cut heard).frames)
    (hfed : ∀ v, u ≠ v → Fed m₀ s (g.queue v) u v (p.given v) →
      Fed m₀ s (g.queue v) u v (q.given v)) :
    Kept m₀ { g with progress := Function.update g.progress u q } s
      (.reader u ov heard q ::ₘ R) := by
  have hset := hk.setRead (x := s.manager.session u) ⟨rfl, rfl, rfl, rfl⟩ hbegun hfed
  have hsame : s.setSession u (s.manager.session u) = s := by
    rw [Room.setSession, SessionManager.setSession, Function.update_eq_self]
  rwa [hsame, hk.owned.1] at hset

/-! ## pointers -/

section Pointers

variable (hN : N < 2 ^ 32)
include hN

/-- A handle that was valid is. -/
theorem Kept.isValid (hk : Kept m₀ g s F) (v : Fin N) :
    s.manager.sessionPool_.set.isValid (m₀.handleAt v) = true := by
  rw [← hk.same.handleAt]
  exact SparseSet.isValid_handleAt hN _ v

/-- The slot of a handle. -/
theorem Triple.slot (v : Fin N) : Triple m₀ r (SessionManager.slot (m₀.handleAt v))
    (fun b r' => b = v ∧ r' = r) := by
  have hw := SessionManager.toNat_whoOf hN m₀ v
  refine Triple.view fun g s F _ _ => ?_
  rw [dif_pos (by rw [hw]; exact v.isLt)]
  exact congrArg Except.ok (Fin.ext hw)

/-- `IsValid` of a pointer to a session. -/
theorem Triple.isValid (v : Fin N) :
    Triple m₀ r (SharedPoolPtr.isValid (pool (port N)) ⟨true, m₀.handleAt v⟩)
      (fun b r' => b = true ∧ r' = r) :=
  Triple.read fun _ _ _ _ hk => hk.isValid hN v

/-- `operator->` of it. -/
theorem Triple.deref (v : Fin N) :
    Triple m₀ r (SessionManager.deref (port N) ⟨true, m₀.handleAt v⟩)
      (fun b r' => b = v ∧ r' = r) :=
  (Triple.isValid hN v).then ((Triple.read fun _ _ _ _ hk => hk.isValid hN v).then
    (Triple.slot hN v))

end Pointers

/-! ## the broadcast -/

section Broadcast

variable (hN : N < 2 ^ 32)
include hN

/-- The snapshot: the sessions that are connected now are still to be sent the packet. -/
theorem Triple.snapshot (hnext : handled ++ [packet] <+: (packets.cut heard).frames) :
    Triple m₀ {.reader u ov heard ⟨handled, none⟩}
      (SparsePool.getIndicesInState (pool (port N)) SessionState.kConnected.toNat)
      (fun handles r => ∃ l : List (Fin N), handles = l.map m₀.handleAt ∧ l.Nodup ∧
        (∀ v ∈ l, m₀.state v = SessionState.kConnected.toNat) ∧
        r = {.reader u ov heard ⟨handled, some (packet, l.filter (· ≠ u))⟩}) := by
  refine Triple.action fun g s F _ hk => ?_
  rw [Multiset.singleton_add] at hk
  obtain ⟨b, hb⟩ := hk.same.repr
  have hstate : ∀ w, w ∈ b.members SessionState.kConnected.toNat ↔
      s.manager.state w = SessionState.kConnected.toNat := fun w => by
    rw [b.mem_members w ⟨SessionState.kConnected.toNat, by decide⟩, state, hb.state]
    exact ⟨fun he => by rw [he], fun he => Fin.ext he⟩
  have hlist : s.manager.sessionPool_.set.getIndicesInState SessionState.kConnected.toNat =
      some ((b.members SessionState.kConnected.toNat).map s.manager.handleAt) :=
    SparseSet.getIndicesInState_spec hN hb ⟨SessionState.kConnected.toNat, by decide⟩
  rw [hk.same.handleAt] at hlist
  have hk' := hk.progress (q := ⟨handled, some (packet,
    (b.members SessionState.kConnected.toNat).filter (· ≠ u))⟩) hnext fun v huv hfed => ?_
  · rw [← Multiset.singleton_add] at hk'
    refine ⟨_, s, _, ?_, ⟨_, hk'⟩, _, rfl, b.nodup_members _, fun v hv => ?_, rfl⟩
    · show (Except.map _ (Prog.orFault _ (s.manager.sessionPool_.set.getIndicesInState _))) = _
      rw [hlist]
      rfl
    · rcases hk.same.state v with h | h
      · rw [← h]
        exact (hstate v).mp hv
      · exact absurd ((hstate v).mp hv) (by rw [h]; decide)
  · simp only [Progress.given] at hfed ⊢
    split_ifs with hv
    · exact hfed
    · -- who is not in the snapshot is not connected
      refine ⟨hfed.sublist.trans ?_, fun hs => absurd ?_ hv⟩
      · rw [List.map_append]
        exact List.sublist_append_left _ _
      · exact List.mem_filter.mpr ⟨(hstate v).mpr hs, by simpa using Ne.symm huv⟩

variable (hm : Serving m₀)
include hm

/-- A turn of the loop. -/
theorem Triple.sendTo {todo : List (Fin N)} {handle : UInt64} (hc : p.current = some (packet, todo))
    (hv : v ∈ todo) (huv : u ≠ v) (hconnected : m₀.state v = SessionState.kConnected.toNat)
    (hhandle : handle = m₀.handleAt v) (h4 : 4 ≤ packet.length) (hproper : Proper packet) :
    Triple m₀ {.reader u ov heard p}
      (sendTo (port N) (Room.send (relayed (m₀.handleAt u) packet)) handle)
      (fun _ r => r = {.reader u ov heard (p.pass v)}) := by
  subst hhandle
  have hread : Triple m₀ {.reader u ov heard p} ((ptrLens (port N) v).read id)
      (fun b r => b = ⟨true, m₀.handleAt v⟩ ∧ r = {.reader u ov heard p}) :=
    Triple.read fun g s F _ hk => (congrFun hk.same.ptrs v).trans (hm.connected v hconnected)
  refine (Triple.slot hN v).then (hread.then ((Triple.isValid hN v).then ?_))
  rw [if_pos rfl]
  refine (hread.then (Triple.deref hN v)).then ?_
  exact (Triple.send hN hc hv huv hconnected h4 hproper).bind fun _ _ hr => Triple.done hr

/-- The loop sends to every slot of its list but the sender's. -/
theorem Triple.broadcastLoop {l : List (Fin N)} (hnodup : l.Nodup)
    (hl : ∀ v ∈ l, m₀.state v = SessionState.kConnected.toNat) (h4 : 4 ≤ packet.length)
    (hproper : Proper packet) :
    Triple m₀ {.reader u ov heard ⟨handled, some (packet, l.filter (· ≠ u))⟩}
      (broadcastLoop
        (SessionManager.sendTo (port N) (Room.send (relayed (m₀.handleAt u) packet)))
        (m₀.handleAt u) (l.map m₀.handleAt))
      (fun b r => b = true ∧ r = {.reader u ov heard ⟨handled, some (packet, [])⟩}) := by
  induction l with
  | nil => exact Triple.done ⟨rfl, rfl⟩
  | cons v l ih =>
      rw [List.nodup_cons] at hnodup
      have ih := ih hnodup.2 fun w hw => hl w (List.mem_cons_of_mem v hw)
      rw [List.map_cons, SessionManager.broadcastLoop]
      by_cases hv : v = u
      · rw [if_neg (by simp [hv]), List.filter_cons_of_neg (by simp [hv])]
        exact ih
      · rw [if_pos fun h => hv (handleAt_inj hN m₀ h), List.filter_cons_of_pos (by simpa using hv)]
        have hpass : (⟨handled, some (packet, v :: l.filter (· ≠ u))⟩ : Progress N).pass v =
            ⟨handled, some (packet, l.filter (· ≠ u))⟩ := by
          have hrest : (l.filter (· ≠ u)).filter (· ≠ v) = l.filter (· ≠ u) :=
            List.filter_eq_self.mpr fun w hw => by
              have hmem := (List.mem_filter.mp hw).1
              simpa using fun h : w = v => hnodup.1 (h ▸ hmem)
          simp only [Progress.pass, Option.map_some, ne_eq, not_true_eq_false, decide_false,
            Bool.false_eq_true, not_false_eq_true, List.filter_cons_of_neg]
          rw [← hrest]
          simp
        refine (Triple.sendTo hN hm rfl List.mem_cons_self (Ne.symm hv) (hl v List.mem_cons_self)
          rfl h4 hproper).bind fun _ r hr => ?_
        subst hr
        rw [hpass]
        exact ih

/-- `Broadcast` of the next packet. -/
theorem Triple.broadcast (hnext : handled ++ [packet] <+: (packets.cut heard).frames)
    (h4 : 4 ≤ packet.length) (hproper : Proper packet) :
    Triple m₀ {.reader u ov heard ⟨handled, none⟩}
      (broadcast (port N) (Room.send (relayed (m₀.handleAt u) packet)) (m₀.handleAt u))
      (fun b r => b = true ∧ r = {.reader u ov heard ⟨handled, some (packet, [])⟩}) := by
  refine (Triple.snapshot hN hnext).bind fun handles r h => ?_
  obtain ⟨l, rfl, hnodup, hl, rfl⟩ := h
  exact Triple.broadcastLoop hN hm hnodup hl h4 hproper

end Broadcast

/-! ## the handlers -/

/-- Bytes of what is waiting. -/
theorem load_at (h : ov.Holds rest) {k n : Nat} (hle : k + n ≤ rest.length) :
    ov.load (ov.readPos_ + k) n = .ok ((rest.drop k).take n) := by
  have hmapped := h.mapped
  rw [OverlappedEx.getSize] at hmapped
  have hslice : ov.buffer_.slice (ov.readPos_ + k) n = (rest.drop k).take n := by
    rw [← Mirror.take_slice _ _ (show n ≤ rest.length - k by omega),
      ← Mirror.drop_slice _ _ (show k ≤ rest.length by omega), h.slice]
  rw [OverlappedEx.load, Mirror.read?_of_le _ (by omega), hslice, Prog.orFault_some]

/-- The packet in front of what is waiting. -/
structure Front (ov : OverlappedEx) (packet : List UInt8) : Prop where
  holds : ∃ more, ov.Holds (packet ++ more)
  header : 4 ≤ packet.length
  size : packets.size packet = packet.length

theorem Front.load (h : Front ov packet) {k n : Nat} (hle : k + n ≤ packet.length) :
    ov.load (ov.readPos_ + k) n = .ok ((packet.drop k).take n) := by
  obtain ⟨more, hmore⟩ := h.holds
  rw [load_at hmore (by rw [List.length_append]; omega),
    List.drop_append_of_le_length (by omega),
    List.take_append_of_le_length (by rw [List.length_drop]; omega)]

theorem Front.loadHeader (h : Front ov packet) :
    (ov.load ov.readPos_ PacketHeader.sizeOf).map PacketHeader.ofBytes = .ok (.ofBytes packet) := by
  have hload := h.load (k := 0) (n := PacketHeader.sizeOf) (by rw [PacketHeader.sizeOf]; exact h.header)
  rw [Nat.add_zero, List.drop_zero] at hload
  rw [hload, Except.map, PacketHeader.sizeOf, Session.ofBytes_take h.header]

/-- Where the next packet of a session is in what its client has sent. -/
def Next (heard : List UInt8) (handled : List (List UInt8)) (packet : List UInt8) : Prop :=
  handled ++ [packet] <+: (packets.cut heard).frames

section Handlers

variable (hN : N < 2 ^ 32) (hm : Serving m₀) (hu : m₀.state u ≠ 0)
include hN hm hu

/-- What the handlers do with the packet they make. -/
theorem Triple.relay (hnext : Next heard handled packet) (h4 : 4 ≤ packet.length)
    (hproper : Proper packet) {data : List UInt8}
    (hdata : data = relayed (m₀.handleAt u) packet) :
    Triple m₀ {.reader u ov heard ⟨handled, none⟩}
      (managerOf (port N) u >>= fun _ =>
        SessionManager.broadcast (port N) (Room.send data) (m₀.handleAt u))
      (fun b r => b = true ∧ r = {.reader u ov heard ⟨handled, some (packet, [])⟩}) := by
  subst hdata
  refine (Triple.viewOwn hm hu (a := ()) fun x _ _ hmanaged => ?_).then
    (Triple.broadcast hN hm hnext h4 hproper)
  rw [hmanaged, if_pos rfl]

/-- `HandleC2S_CHAT`. -/
theorem Triple.handleC2SChat (hfront : Front ov packet) (hnext : Next heard handled packet)
    (hproper : Proper packet)
    (hid : (PacketHeader.ofBytes packet).id.toNat = C2SPacketId.kChat.toNat) :
    Triple m₀ {.reader u ov heard ⟨handled, none⟩}
      (PacketHandler.handleC2SChat (sessionLens (port N) u) (fun data handle =>
        managerOf (port N) u >>= fun _ =>
          SessionManager.broadcast (port N) (Room.send data) handle) ov.readPos_)
      (fun b r => b = true ∧ r = {.reader u ov heard ⟨handled, some (packet, [])⟩}) := by
  have hsize : (PacketHeader.ofBytes packet).size.toNat = packet.length := hfront.size
  have h4 := hfront.header
  have hlt := (PacketHeader.ofBytes packet).size.toNat_lt
  have hdata : PacketHandler.chatPacket (PacketHeader.ofBytes packet).size (m₀.handleAt u)
      (packet.drop 4) = .ok (relayed (m₀.handleAt u) packet) := by
    rw [PacketHandler.chatPacket_eq (by omega) _ (by rw [List.length_drop, hsize]), relayed,
      if_neg (by rw [hid]; decide), Relay.chat, hsize, List.length_drop,
      show packet.length - 4 + 12 = packet.length + 8 by omega]
  refine (Triple.viewOwn hm hu (a := PacketHeader.ofBytes packet) fun x hx _ _ => ?_).then
    ((Triple.readOwn hm hu (a := m₀.handleAt u) fun x _ hx => hx).then
      ((Triple.viewOwn hm hu (a := packet.drop 4) fun x hx _ _ => ?_).then
        ((Triple.view (a := relayed (m₀.handleAt u) packet) fun g s F _ _ => hdata).then
          ((Triple.relay hN hm hu hnext h4 hproper rfl).then (Triple.done ⟨rfl, rfl⟩)))))
  · rw [hx]
    exact hfront.loadHeader
  · rw [hx, hsize, PacketHeader.sizeOf, sub64_of_le h4 (by omega),
      hfront.load (by omega), List.take_of_length_le (by rw [List.length_drop])]

/-- `HandleC2S_MOVE`. -/
theorem Triple.handleC2SMove (hfront : Front ov packet) (hnext : Next heard handled packet)
    (hproper : Proper packet)
    (hid : (PacketHeader.ofBytes packet).id.toNat = C2SPacketId.kMove.toNat) :
    Triple m₀ {.reader u ov heard ⟨handled, none⟩}
      (PacketHandler.handleC2SMove (sessionLens (port N) u) (fun data handle =>
        managerOf (port N) u >>= fun _ =>
          SessionManager.broadcast (port N) (Room.send data) handle) ov.readPos_)
      (fun b r => b = true ∧ r = {.reader u ov heard ⟨handled, some (packet, [])⟩}) := by
  have h12 : 12 ≤ packet.length := by
    rcases hproper with h | h
    · exact h.2
    · exact absurd (hid.symm.trans h.1) (by decide)
  refine (Triple.readOwn hm hu (a := m₀.handleAt u) fun x _ hx => hx).then
    ((Triple.viewOwn hm hu (a := (packet.drop 4).take 4) fun x hx _ _ => ?_).then
      ((Triple.viewOwn hm hu (a := (packet.drop 8).take 4) fun x hx _ _ => ?_).then
        ((Triple.relay hN hm hu hnext hfront.header hproper ?_).then (Triple.done ⟨rfl, rfl⟩))))
  · rw [hx]
    exact hfront.load (by omega)
  · rw [hx]
    exact hfront.load (by omega)
  · rw [relayed, if_pos hid]

/-- `Execute`. -/
theorem Triple.execute (hfront : Front ov packet) (hnext : Next heard handled packet)
    (hproper : Proper packet) :
    Triple m₀ {.reader u ov heard ⟨handled, none⟩}
      (SessionManager.execute (port N) Room.send u ov.readPos_)
      (fun b r => b = true ∧ r = {.reader u ov heard ⟨handled, some (packet, [])⟩}) := by
  refine (Triple.viewOwn hm hu (a := PacketHeader.ofBytes packet) fun x hx _ _ => ?_).then ?_
  · rw [hx]
    exact hfront.loadHeader
  · rw [PacketHandler.handlers_get?]
    rcases hproper with h | h
    · rw [show (PacketHeader.ofBytes packet).id.toNat = 1 from h.1]
      exact Triple.handleC2SMove hN hm hu hfront hnext (.inl h) h.1
    · rw [show (PacketHeader.ofBytes packet).id.toNat = 2 from h.1]
      exact Triple.handleC2SChat hN hm hu hfront hnext (.inr h) h.1

end Handlers

end Room

end ServerStudy
