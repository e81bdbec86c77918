import ServerStudy.Room.Relaying

/-!
# ServerStudy.Room.Receiving

What a thread does with the completion of a receive.

* `Triple.hear` — it is dequeued: the bytes are in the buffer, and the thread is
  the reader of it;
* `Triple.parse` — the loop of `OnRead` relays every packet that is complete;
* `Triple.onRead` — after it a receive is outstanding, or the thread is to
  disconnect the session.
-/

namespace ServerStudy

namespace Room

open SessionManager

variable {N : Nat} {m₀ : SessionManager N} {g : Ghost N} {s : Room N} {u v w : Fin N}
  {ov ov' : OverlappedEx} {heard packet rest bytes : List UInt8} {p : Progress N}
  {F R r : Multiset (Token N)} {handled : List (List UInt8)} {wsaBuf : WsaBuf}

/-! ## what is still to be parsed -/

/-- With `handled` relayed, `rest` is still to be parsed. -/
structure Reading (ov : OverlappedEx) (heard : List UInt8) (handled : List (List UInt8))
    (rest : List UInt8) : Prop where
  holds : ov.Holds rest
  fits : rest.length ≤ OverlappedEx.getSize
  high : ov.readPos_ + rest.length < 2 * OverlappedEx.getSize
  cut : packets.cut heard = ⟨handled ++ (packets.cut rest).frames, (packets.cut rest).rest,
    (packets.cut rest).malformed⟩

section Step

variable (h : Reading ov heard handled rest) (hsize : 4 ≤ packets.size rest)
  (hlen : packets.size rest ≤ rest.length)
include hsize hlen

theorem cut_rest_frame : packets.cut rest = ⟨rest.take (packets.size rest) ::
    (packets.cut (rest.drop (packets.size rest))).frames,
    (packets.cut (rest.drop (packets.size rest))).rest,
    (packets.cut (rest.drop (packets.size rest))).malformed⟩ :=
  packets.cut_frame (by rw [packets_header]; omega) hsize hlen

include h

/-- The packet in front. -/
theorem Reading.front : Front ov (rest.take (packets.size rest)) where
  holds := ⟨rest.drop (packets.size rest), by
    rw [List.take_append_drop]
    exact h.holds⟩
  header := by
    rw [List.length_take]
    omega
  size := by
    have happend := packets.size_append (rest.take (packets.size rest))
      (rest.drop (packets.size rest)) (by rw [packets_header, List.length_take]; omega)
    rw [List.take_append_drop] at happend
    rw [← happend, List.length_take, Nat.min_eq_left hlen]

theorem Reading.next : Next heard handled (rest.take (packets.size rest)) := by
  refine ⟨(packets.cut (rest.drop (packets.size rest))).frames, ?_⟩
  rw [h.cut, cut_rest_frame hsize hlen, List.append_assoc, List.singleton_append]

/-- It is relayed, and skipped. -/
theorem Reading.step : Reading (ov.consume (packets.size rest)) heard
    (handled ++ [rest.take (packets.size rest)]) (rest.drop (packets.size rest)) where
  holds := h.holds.consume hlen
  fits := by
    have hfits := h.fits
    rw [List.length_drop]
    omega
  high := by
    have hhigh := h.high
    have hB := OverlappedEx.getSize_eq
    simp only [OverlappedEx.consume]
    rw [add64_of_lt (by omega), List.length_drop]
    omega
  cut := by
    rw [h.cut, cut_rest_frame hsize hlen, List.append_assoc, List.singleton_append]

end Step

/-! ## the loop -/

/-- The thread is the reader of the session. -/
def IsReader (u : Fin N) (r : Multiset (Token N)) : Prop :=
  ∃ ov heard p, r = {.reader u ov heard p}

/-- And has relayed all packets that are complete. -/
def Drained (u : Fin N) (heard : List UInt8) (r : Multiset (Token N)) : Prop :=
  ∃ ov handled rest, Reading ov heard handled rest ∧ Session.Stuck rest false ∧
    r = {.reader u ov heard ⟨handled, none⟩}

/-- The header of what is waiting. -/
theorem loadHeader (h : ov.Holds rest) (h4 : 4 ≤ rest.length) :
    (ov.load ov.readPos_ PacketHeader.sizeOf).map PacketHeader.ofBytes = .ok (.ofBytes rest) := by
  rw [PacketHeader.sizeOf, h.load h4, Except.map, Session.ofBytes_take h4]

section Loop

variable (hN : N < 2 ^ 32) (hm : Serving m₀) (hu : m₀.state u ≠ 0)
include hN hm hu

/-- The loop of `OnRead`. -/
theorem Triple.parse (turns : Nat) (h : Reading ov heard handled rest)
    (hturns : rest.length < turns) :
    Triple m₀ {.reader u ov heard ⟨handled, none⟩} (Session.parse (Room.session u) turns)
      (fun b r => if b then Drained u heard r else IsReader u r) := by
  induction turns generalizing ov handled rest with
  | zero => omega
  | succ turns ih =>
      rw [Session.parse]
      refine (Triple.readCivil (a := rest.length) fun x hx => hx ▸ h.holds.available).bind
        fun b r hb => ?_
      obtain ⟨rfl, hcivil, rfl⟩ := hb
      refine Triple.ite (fun hshort => Triple.done ?_) fun hlong => ?_
      · exact ⟨_, _, _, h, packets.cut_short hshort, rfl⟩
      rw [PacketHeader.sizeOf, Nat.not_lt] at hlong
      have hheader (q : Progress N) : Triple m₀ {.reader u ov heard q}
          (Session.readHeader (Room.session u) ov.readPos_)
          (fun b r => b = PacketHeader.ofBytes rest ∧ r = {.reader u ov heard q}) :=
        Triple.viewOwn hm hu fun x hx _ _ => by
          rw [hx]
          exact loadHeader h.holds hlong
      refine (Triple.readOwn hm hu (a := ov.readPos_) fun x hx _ => hx ▸ rfl).then ?_
      refine (hheader _).then ?_
      refine Triple.ite (fun _ => Triple.done ⟨_, _, _, rfl⟩) fun hsize => ?_
      rw [not_or, PacketHeader.sizeOf, Nat.not_lt] at hsize
      refine Triple.ite (fun hpart => Triple.done ?_) fun hwhole => ?_
      · exact ⟨_, _, _, h, packets.cut_incomplete (by rw [packets_header]; exact hlong) hsize.1
          hpart, rfl⟩
      rw [Nat.not_lt] at hwhole
      have hnext := h.next hsize.1 hwhole
      refine (Triple.execute hN hm hu (h.front hsize.1 hwhole) hnext
        (hcivil _ (hnext.subset (by simp)))).then ?_
      refine Triple.ite (fun hfalse => absurd hfalse (by decide)) fun _ => ?_
      refine (hheader _).then ?_
      have hskip : Triple m₀ {.reader u ov heard ⟨handled, some (rest.take (packets.size rest), [])⟩}
          ((Room.session u).self.modify fun x => x.skip (packets.size rest))
          (fun b r => b = () ∧ r = {.reader u (ov.consume (packets.size rest)) heard
            ⟨handled ++ [rest.take (packets.size rest)], none⟩}) :=
        Triple.modifyOwn (fun x hx => ⟨⟨rfl, rfl, rfl, rfl⟩, hx ▸ rfl⟩) rfl fun v _ => by
          simp [Progress.given]
      refine hskip.then ?_
      exact ih (h.step hsize.1 hwhole) (by rw [List.length_drop, packets_size]; omega)

end Loop

/-! ## the kernel -/

/-- A receive is posted, and its completion will be somebody else's. -/
theorem Kept.await (hk : Kept m₀ g s (.reader u ov heard p ::ₘ R))
    (hu : m₀.state u = SessionState.kConnected.toNat) (h : Awaits ov heard wsaBuf p) :
    Kept m₀ g (s.postRecv u wsaBuf) R := by
  obtain ⟨hread, hheard, hp⟩ := hk.owned
  obtain ⟨hcount, -⟩ := (hk.reads u).alone (by simp)
  refine ⟨hk.same, fun w => ?_, fun w => ?_, fun v => (hk.busy v).congr id id rfl rfl (countP_other rfl),
    fun w v hwv => (hk.fed w v hwv).congr id id, fun v => ((Writes.cons_iff (by simp)).mp (hk.writes v)).congr rfl rfl rfl rfl⟩
  all_goals by_cases hw : w = u
  · subst hw
    refine ⟨?_, (hk.reads w).begun, fun _ => hu, fun wsaBuf' hr => ?_, fun ov' heard' p' hmem => ?_⟩
    · rw [hcount, Nat.zero_add]
      exact Bool.toNat_le _
    · rw [receiving_postRecv] at hr
      cases hr
      rw [hp]
      exact hread.symm ▸ hheard.symm ▸ h
    · exact absurd hmem (not_mem_of_reads hcount)
  · exact ((Reads.cons_iff (by simpa using Ne.symm hw)).mp (hk.reads w)).congr
      (Function.update_of_ne hw _ _) rfl rfl
  · rw [hw]
    intro _
    rw [receiving_postRecv, Option.isSome_some, Bool.toNat_true]
    exact Nat.le_add_left _ _
  · exact (hk.listens w).congr id (Function.update_of_ne hw _ _)
      (countP_other (by simpa using Ne.symm hw))

/-- `WSARecv`. -/
theorem wp_wsaRecv {bad : Fault → Prop} {post : WsaResult → Room N × Unit → Prop}
    (h : ∀ r : WsaResult, post r (if r.posted then (s.postRecv u wsaBuf, ()) else (s, ()))) :
    Prog.wp answers bad ((port N).wsaRecv u wsaBuf) post (s, ()) := by
  refine fun r _ => ?_
  have hr := h r
  cases hposted : r.posted with
  | false =>
      rw [hposted] at hr
      simpa [hposted] using hr
  | true =>
      rw [hposted] at hr
      simpa [hposted, change, Prog.wp_bind] using hr

/-- A receive is posted, or the thread remains the reader. -/
theorem Triple.wsaRecv (hu : m₀.state u = SessionState.kConnected.toNat)
    (h : Awaits ov heard wsaBuf p) :
    Triple m₀ {.reader u ov heard p} ((port N).wsaRecv u wsaBuf)
      (fun b r => b.posted = true ∧ r = 0 ∨ b.posted = false ∧ IsReader u r) := by
  refine Triple.locked rfl fun g s F _ hk => wp_wsaRecv fun b => ?_
  cases hb : b.posted with
  | false =>
      rw [if_neg Bool.false_ne_true]
      exact ⟨_, ⟨g, hk⟩, .inr ⟨rfl, _, _, _, rfl⟩⟩
  | true =>
      rw [if_pos rfl]
      rw [Multiset.singleton_add] at hk
      have hawait := hk.await hu h
      rw [← zero_add F] at hawait
      exact ⟨_, ⟨g, hawait⟩, .inl ⟨rfl, rfl⟩⟩

/-- The buffer after a receive. -/
def filled (ov : OverlappedEx) (off : Nat) (bytes : List UInt8) : OverlappedEx :=
  { ov with buffer_ := ov.buffer_.write off bytes }

/-- The bytes that were received are the last of those to be parsed. -/
theorem Awaits.reading (h : Awaits ov heard wsaBuf p) (hlen : bytes.length ≤ wsaBuf.len) :
    ∃ rest, Reading ((filled ov wsaBuf.buf bytes).produce bytes.length) (heard ++ bytes) p.handled
      rest := by
  obtain ⟨rest, hholds, hfits, hcut, rfl⟩ := h.rest
  have hlow := h.low
  have hB := OverlappedEx.getSize_eq
  simp only at hlen
  refine ⟨rest ++ bytes, hholds.append bytes (by omega) (by omega), ?_, ?_, ?_⟩
  · rw [List.length_append]
    omega
  · rw [List.length_append]
    show ov.readPos_ + _ < _
    omega
  · rw [packets.cut_append, hcut, if_neg Bool.false_ne_true]

/-- The completion of a receive: whoever dequeues it is the reader. -/
theorem Kept.hear (hk : Kept m₀ g s F) (hr : s.receiving u = some wsaBuf) (bytes : List UInt8) :
    Kept m₀ g (s.hear u bytes) (.reader u (filled (s.manager.session u).readOv_ wsaBuf.buf bytes)
      (s.heard u ++ bytes) (g.progress u) ::ₘ F) := by
  have hone := (hk.reads u).one
  rw [hr, Option.isSome_some, Bool.toNat_true] at hone
  have hcount : F.countP (·.reads u) = 0 := by omega
  have hnone : (s.hear u bytes).receiving u = none := Function.update_self _ _ _
  have hself : ((s.hear u bytes).manager.session u).readOv_ =
      filled (s.manager.session u).readOv_ wsaBuf.buf bytes := by
    rw [Room.hear]
    simp only [hr, Option.getD_some, session_setSession]
    rfl
  have hheard : (s.hear u bytes).heard u = s.heard u ++ bytes := Function.update_self _ _ _
  have hflag (v : Fin N) : ((s.hear u bytes).manager.session v).isSending_ =
      (s.manager.session v).isSending_ := isSending_setSession (s := s) (u := u) (by rfl) v
  refine ⟨hk.same.setSession rfl rfl, fun w => ?_, fun w => ?_, fun v => (hk.busy v).congr id id
    (hflag v) rfl (countP_other rfl).symm,
    fun w v hwv => (hk.fed w v hwv).congr id id, fun v => (Writes.cons_iff (by simp)).mpr ?_⟩
  · by_cases hw : w = u
    · subst hw
      refine ⟨?_, ?_, fun h => ?_, fun wsaBuf' h => ?_, fun ov' heard' p' hmem => ?_⟩
      · rw [hnone, Multiset.countP_cons_of_pos (p := (·.reads w)) F (by simp), hcount]
        decide
      · have hawaits := (hk.reads w).awaits wsaBuf hr
        obtain ⟨rest, -, -, hcut, -⟩ := hawaits.rest
        rw [hheard, Progress.begun, hawaits.current, packets.cut_append, hcut,
          if_neg Bool.false_ne_true]
        exact List.prefix_append _ _
      · rw [hnone] at h
        exact absurd h Bool.false_ne_true
      · rw [hnone] at h
        cases h
      · rcases Multiset.mem_cons.mp hmem with he | hmem
        · cases he
          exact ⟨hself, hheard, rfl⟩
        · exact absurd hmem (not_mem_of_reads hcount)
    · rw [Reads.cons_iff (by simpa using Ne.symm hw)]
      exact (hk.reads w).congr (Function.update_of_ne hw _ _) (Function.update_of_ne hw _ _)
        (by rw [Room.hear]; simp only [session_setSession_ne _ hw])
  · by_cases hw : w = u
    · subst hw
      intro _
      rw [Multiset.countP_cons_of_pos (p := (·.reads w)) F (by simp)]
      omega
    · exact (hk.listens w).congr id (Function.update_of_ne hw _ _)
        (countP_other (by simpa using Ne.symm hw)).symm
  · by_cases hv : v = u
    · subst hv
      exact (hk.writes v).congr rfl rfl (by rw [Room.hear]; simp) (by rw [Room.hear]; simp)
    · exact (hk.writes v).congr rfl rfl (by rw [Room.hear]; simp only [session_setSession_ne _ hv])
        (by rw [Room.hear]; simp only [session_setSession_ne _ hv])

/-- What a thread has when it has dequeued the completion of a receive. -/
def Heard (m₀ : SessionManager N) (u : Fin N) (n : Option Nat) (r : Multiset (Token N)) : Prop :=
  m₀.state u = SessionState.kConnected.toNat ∧ ∃ ov heard handled,
    r = {.reader u ov heard ⟨handled, none⟩} ∧ ov.ioType_ = .kRecv ∧
    ∀ k, n = some k → ∃ rest, Reading (ov.produce k) heard handled rest

/-- A completion of a receive is dequeued. -/
theorem Triple.hear : Triple m₀ 0 (dequeue (.received u)) (Heard m₀ u) := by
  refine Triple.atomically fun g s F _ hk bytes hbytes => ?_
  rw [zero_add] at hk
  obtain ⟨wsaBuf, hr, hlen⟩ := hbytes
  have hawaits := (hk.reads u).awaits wsaBuf hr
  obtain ⟨handled, hp⟩ : ∃ handled, g.progress u = ⟨handled, none⟩ :=
    ⟨(g.progress u).handled, by rw [← hawaits.current]⟩
  have hheard := hk.hear hr (bytes.getD [])
  rw [hp, ← Multiset.singleton_add] at hheard
  refine ⟨_, ⟨g, hheard⟩, (hk.reads u).connected (by rw [hr]; rfl), _, _, _, rfl, hawaits.ioType,
    fun k hkey => ?_⟩
  obtain ⟨bs, rfl, rfl⟩ := Option.map_eq_some_iff.mp hkey
  rw [hp] at hawaits
  obtain ⟨rest, hreading⟩ := hawaits.reading hlen
  exact ⟨rest, hreading⟩

/-! ## the methods -/

section Methods

variable (hN : N < 2 ^ 32) (hm : Serving m₀) (hu : m₀.state u = SessionState.kConnected.toNat)
include hm hu

/-- `RegisterRead`, when no packet is complete. -/
theorem Triple.registerRead (h : Reading ov heard handled rest) (hstuck : Session.Stuck rest false)
    (hlow : ov.readPos_ < OverlappedEx.getSize) :
    Triple m₀ {.reader u ov heard ⟨handled, none⟩} (Session.registerRead (Room.session u))
      (fun b r => b = true ∧ r = 0 ∨ b = false ∧ IsReader u r) := by
  have hu' : m₀.state u ≠ 0 := by rw [hu]; decide
  unfold Session.registerRead
  have hposted : Triple m₀ {.reader u ov heard ⟨handled, none⟩}
      ((Room.session u).self.update fun s =>
        let len := toULong (add64 (sub64 OverlappedEx.getSize s.readOv_.writePos_) s.readOv_.readPos_)
        .ok (len, { s with readOv_.wsaBuf_.len := len }))
      (fun b r => b = OverlappedEx.getSize - rest.length ∧ r = {.reader u
        { ov with wsaBuf_.len := OverlappedEx.getSize - rest.length } heard ⟨handled, none⟩}) :=
    Triple.updateOwn (fun x hx =>
      ⟨{ x with readOv_.wsaBuf_.len := OverlappedEx.getSize - rest.length },
        by simp only [hx, h.holds.room_eq h.fits], ⟨rfl, rfl, rfl, rfl⟩, by rw [← hx]⟩) rfl
      fun _ _ => rfl
  refine hposted.then (Triple.ite (fun _ => Triple.done (.inr ⟨rfl, _, _, _, rfl⟩)) fun _ => ?_)
  have htyped : Triple m₀ {.reader u { ov with wsaBuf_.len := OverlappedEx.getSize - rest.length }
        heard ⟨handled, none⟩}
      ((Room.session u).self.modify fun s =>
        { s with readOv_.ioType_ := .kRecv, readOv_.wsaBuf_.buf := s.readOv_.writePos_ })
      (fun b r => b = () ∧ r = {.reader u
        { ov with ioType_ := .kRecv, wsaBuf_ := ⟨ov.writePos_, OverlappedEx.getSize - rest.length⟩ }
        heard ⟨handled, none⟩}) :=
    Triple.modifyOwn (fun x hx => ⟨⟨rfl, rfl, rfl, rfl⟩, by rw [hx]⟩) rfl fun _ _ => rfl
  refine htyped.then ?_
  refine (Triple.readOwn hm hu' (a := m₀.handleAt u) fun x _ hx => hx).then ?_
  refine (Triple.readOwn hm hu' (a := ⟨ov.writePos_, OverlappedEx.getSize - rest.length⟩)
    fun x hx _ => by rw [hx]).then ?_
  have hawaits : Awaits { ov with
      ioType_ := .kRecv, wsaBuf_ := ⟨ov.writePos_, OverlappedEx.getSize - rest.length⟩ } heard
      ⟨ov.writePos_, OverlappedEx.getSize - rest.length⟩ (⟨handled, none⟩ : Progress N) := by
    refine ⟨⟨rest, ⟨h.holds.writePos, h.holds.slice, h.holds.mapped⟩, h.fits, ?_, rfl⟩, hlow, rfl, rfl⟩
    rw [h.cut, hstuck, List.append_nil]
  refine (Triple.wsaRecv hu hawaits).bind fun b r hb => ?_
  cases b with
  | ok => exact Triple.done (.inl ⟨rfl, (hb.resolve_right fun h => absurd h.1 (by decide)).2⟩)
  | socketError errorCode =>
      refine Triple.ite (fun hpending => Triple.done (.inl ⟨rfl, ?_⟩)) fun hfailed =>
        Triple.done (.inr ⟨rfl, ?_⟩)
      · exact (hb.resolve_right fun h => absurd h.1 (by simp [WsaResult.posted, hpending])).2
      · exact (hb.resolve_left fun h => absurd h.1 (by simpa [WsaResult.posted] using hfailed)).2

include hN

/-- `OnRead`. -/
theorem Triple.onRead {n : Nat} (h : Reading (ov.produce n) heard handled rest) :
    Triple m₀ {.reader u ov heard ⟨handled, none⟩} (Session.onRead (Room.session u) n)
      (fun b r => b = true ∧ r = 0 ∨ b = false ∧ IsReader u r) := by
  have hu' : m₀.state u ≠ 0 := by rw [hu]; decide
  unfold Session.onRead
  have hproduce : Triple m₀ {.reader u ov heard ⟨handled, none⟩}
      ((Room.session u).self.modify fun s => { s with readOv_ := s.readOv_.produce n })
      (fun b r => b = () ∧ r = {.reader u (ov.produce n) heard ⟨handled, none⟩}) :=
    Triple.modifyOwn (fun x hx => ⟨⟨rfl, rfl, rfl, rfl⟩, by rw [hx]⟩) rfl fun _ _ => rfl
  refine hproduce.then ?_
  refine (Triple.readOwn hm hu' (a := rest.length + 1) fun x hx _ => by
    rw [hx, h.holds.available]).then ?_
  refine (Triple.parse hN hm hu' (rest.length + 1) h (Nat.lt_succ_self _)).bind fun b r hb => ?_
  cases b with
  | false => exact Triple.done (.inr ⟨rfl, hb⟩)
  | true =>
      obtain ⟨ov', handled', rest', hreading, hstuck, rfl⟩ := hb
      have hrewind : Triple m₀ {.reader u ov' heard ⟨handled', none⟩}
          ((Room.session u).self.modify fun s => { s with readOv_ := s.readOv_.rewind })
          (fun b r => b = () ∧ r = {.reader u ov'.rewind heard ⟨handled', none⟩}) :=
        Triple.modifyOwn (fun x hx => ⟨⟨rfl, rfl, rfl, rfl⟩, by rw [hx]⟩) rfl fun _ _ => rfl
      refine Triple.ite (fun hfalse => absurd hfalse (by decide)) fun _ => hrewind.then ?_
      have hlow' : ov'.rewind.readPos_ < OverlappedEx.getSize :=
        OverlappedEx.Holds.rewind_lt (by have := hreading.high; omega)
      have hrest : Reading ov'.rewind heard handled' rest' :=
        ⟨hreading.holds.rewind, hreading.fits, by have := hreading.fits; omega, hreading.cut⟩
      refine (Triple.registerRead hm hu hrest hstuck hlow').bind fun b r hb => ?_
      cases b with
      | false => exact Triple.done hb
      | true => exact Triple.done hb

end Methods

end Room

end ServerStudy
