import ServerStudy.PacketHandler
import ServerStudy.Session.Read

/-!
# ServerStudy.Session.Stream

What one session makes of the byte stream its client sends.  The session runs
on its own: the kernel and the packet handlers are its environment, and every
packet handed to a handler is recorded.  The references that `sessionPtr_`
takes and drops do not matter here and are left out.

* `framing` — whatever the pieces the stream arrives in, the packets handed
  over are the frames of the stream;
* `rejects_iff` — the handler table is only ever indexed at a registered
  handler exactly when every frame of the stream has a registered id.
-/

namespace ServerStudy

/-! ## a session and its environment -/

/-- A session, and the packets handed to a handler so far. -/
structure Reader where
  session : Session
  handed : List (List UInt8) := []

namespace Reader

/-- The session of a `Reader`. -/
def self : Lens Reader Session where
  get s := s.session
  set session s := { s with session }
  get_set _ _ := rfl

/-- A handler: it gets the packet at an offset, and says whether it succeeded. -/
def call (off : Nat) : Prog Reader SessionCall Fault Bool := do
  let header ← self.view fun s => (s.readOv_.load off PacketHeader.sizeOf).map PacketHeader.ofBytes
  let packet ← self.view fun s => s.readOv_.load off header.size.toNat
  Prog.modify fun s => { s with handed := s.handed ++ [packet] }
  Prog.query (.handle packet)

/-- `PacketHandler::Execute` on the handlers' table. -/
def execute : Nat → Prog Reader SessionCall Fault Bool :=
  PacketHandler.execute self (PacketHandler.handlers call call)

/-- The session, with a given `PacketHandler::Execute`. -/
def port (execute : Nat → Prog Reader SessionCall Fault Bool) : SessionPort Reader SessionCall :=
  .alone self execute

/-- The kernel fills the posted buffer with `chunk`. -/
def deliver (chunk : List UInt8) (s : Reader) : Reader :=
  { s with
    session.readOv_.buffer_ :=
      s.session.readOv_.buffer_.write s.session.readOv_.wsaBuf_.buf chunk }

/-! ## runs -/

section Runs

variable (ok : Answers Reader SessionCall) (P : SessionPort Reader SessionCall)

/-- The pieces of a stream fit: none is empty, and none is longer than the
length posted for it. -/
def Fitting : Reader → List (List UInt8) → Prop
  | _, [] => True
  | s, chunk :: chunks =>
      chunk ≠ [] ∧ chunk.length ≤ s.session.readOv_.wsaBuf_.len ∧
      ∀ s', Prog.Exec ok (Session.onRead P chunk.length) (deliver chunk s) (.ok (true, s')) →
        Fitting s' chunks

/-- `Receives ok P s chunks r`: the receive completions `chunks`, one `OnRead`
each, may end in `r`.  After an `OnRead` that returns false there is no other. -/
inductive Receives : Reader → List (List UInt8) → Except Fault (Bool × Reader) → Prop where
  | nil (s : Reader) : Receives s [] (.ok (true, s))
  | more {s s' : Reader} {chunk : List UInt8} {chunks : List (List UInt8)}
      {r : Except Fault (Bool × Reader)} :
      Prog.Exec ok (Session.onRead P chunk.length) (deliver chunk s) (.ok (true, s')) →
      Receives s' chunks r → Receives s (chunk :: chunks) r
  | stop {s s' : Reader} {chunk : List UInt8} {chunks : List (List UInt8)} :
      Prog.Exec ok (Session.onRead P chunk.length) (deliver chunk s) (.ok (false, s')) →
      Receives s (chunk :: chunks) (.ok (false, s'))
  | fault {s : Reader} {chunk : List UInt8} {chunks : List (List UInt8)} {e : Fault} :
      Prog.Exec ok (Session.onRead P chunk.length) (deliver chunk s) (.error e) →
      Receives s (chunk :: chunks) (.error e)

end Runs

/-- Every handler call and every `WSARecv` succeeds. -/
def succeed : Answers Reader SessionCall
  | _, _, .handle _, success => success = true
  | _, _, .wsaRecv _, result => result.posted = true
  | _, _, _, _ => True

/-- Anything may be answered. -/
def anything : Answers Reader SessionCall := fun _ _ _ _ => True

/-! ## one completion -/

open Session OverlappedEx

variable {ok : Answers Reader SessionCall} {bad : Fault → Prop}
  {execute : Nat → Prog Reader SessionCall Fault Bool}

/-- A `WSARecv` is posted for all the room beside `u`, the bytes waiting. -/
structure Posted (u : List UInt8) (s : Reader) : Prop where
  holds : s.session.readOv_.Holds u
  low : s.session.readOv_.readPos_ < getSize
  wsaBuf : s.session.readOv_.wsaBuf_ = ⟨s.session.readOv_.writePos_, getSize - u.length⟩

/-- A handler gets the frame at the front of the waiting bytes. -/
theorem wp_call {post : Bool → Reader → Prop} {s : Reader} {u : List UInt8}
    (h : s.session.readOv_.Holds u) (hsize : 4 ≤ packets.size u) (hlen : packets.size u ≤ u.length) :
    Prog.wp ok bad (call s.session.readOv_.readPos_) post s ↔
      ∀ b, ok _ { s with handed := s.handed ++ [u.take (packets.size u)] }
          (.handle (u.take (packets.size u))) b →
        post b { s with handed := s.handed ++ [u.take (packets.size u)] } := by
  have hheader : (s.session.readOv_.load s.session.readOv_.readPos_ PacketHeader.sizeOf).map
      PacketHeader.ofBytes = .ok (.ofBytes u) := by
    rw [PacketHeader.sizeOf, h.load (by omega), Except.map, ofBytes_take (by omega)]
  have hpacket : s.session.readOv_.load s.session.readOv_.readPos_
      (PacketHeader.ofBytes u).size.toNat = .ok (u.take (packets.size u)) := h.load hlen
  simp only [call, Prog.bind_eq, Prog.wp_bind]
  rw [Prog.wp_lens_view hheader, Prog.wp_lens_view hpacket]
  rfl

/-- `RegisterRead` posts all the room there is. -/
theorem wp_registerRead {post : Bool → Reader → Prop} {s : Reader} {u : List UInt8}
    (h : s.session.readOv_.Holds u) (hlow : s.session.readOv_.readPos_ < getSize)
    (hroom : u.length < getSize)
    (hpost : ∀ s' r, ok _ s' (.wsaRecv s'.session.readOv_.wsaBuf_) r → s'.handed = s.handed →
      Posted u s' → post r.posted s') :
    Prog.wp ok bad (registerRead (port execute)) post s := by
  have hw := h.writePos
  simp only [registerRead, port, SessionPort.alone, Prog.bind_eq, Prog.wp_bind]
  rw [Prog.wp_lens_update rfl]
  simp only [self, h.room_eq hroom.le, if_neg (show ¬ getSize - u.length = 0 by omega),
    Prog.wp_bind, Prog.wp_lens_modify, Prog.wp_lens_read, Prog.wp_done, Prog.wp_query]
  intro r hr
  have hp := hpost _ r hr rfl ⟨⟨hw, h.slice, h.mapped⟩, hlow, rfl⟩
  cases r with
  | ok => exact hp
  | socketError errorCode =>
      by_cases hpending : errorCode = WSA_IO_PENDING
      · simpa [hpending, WsaResult.posted] using hp
      · simpa [hpending, WsaResult.posted] using hp

/-- What is asked of a packet handler and of the environment: every frame with
`G` is handed over to a handler and has `V`; whoever refuses does so by `R`. -/
structure Serves (ok : Answers Reader SessionCall) (bad : Fault → Prop)
    (execute : Nat → Prog Reader SessionCall Fault Bool) (G V : List UInt8 → Prop) (R : Prop) :
    Prop where
  execute : ∀ s u, s.session.readOv_.Holds u → 4 ≤ packets.size u → packets.size u ≤ u.length →
    G (u.take (packets.size u)) →
    Prog.wp ok bad (execute s.session.readOv_.readPos_) (fun b s' =>
      if b then s' = { s with handed := s.handed ++ [u.take (packets.size u)] } ∧
        V (u.take (packets.size u)) else R) s
  recv : ∀ s w r, ok _ s (.wsaRecv w) r → r.posted = true ∨ R

variable {G V : List UInt8 → Prop} {R : Prop}

/-- With `whole` received in all, `u` is still to be parsed. -/
structure Parsing (V : List UInt8 → Prop) (old : List (List UInt8)) (whole u : List UInt8)
    (s : Reader) : Prop where
  holds : s.session.readOv_.Holds u
  high : s.session.readOv_.readPos_ + u.length < 2 * getSize
  handed : ∃ frames, s.handed = old ++ frames ∧ (∀ f ∈ frames, V f) ∧
    (packets.cut whole).frames = frames ++ (packets.cut u).frames
  rest : (packets.cut whole).rest = (packets.cut u).rest
  malformed : (packets.cut whole).malformed = (packets.cut u).malformed

/-- Handing over the frame at the front and skipping it. -/
theorem Parsing.step {old : List (List UInt8)} {whole u : List UInt8} {s : Reader}
    (h : Parsing V old whole u s) (hsize : 4 ≤ packets.size u) (hlen : packets.size u ≤ u.length)
    (hV : V (u.take (packets.size u))) :
    Parsing V old whole (u.drop (packets.size u))
      { s with
        session := s.session.skip (packets.size u)
        handed := s.handed ++ [u.take (packets.size u)] } := by
  obtain ⟨frames, hhanded, hall, hframes⟩ := h.handed
  have hhigh := h.high
  have hB := getSize_eq
  have hcut := packets.cut_frame (by simp only [packets_header]; omega) hsize hlen
  refine ⟨h.holds.consume hlen, ?_, ⟨frames ++ [u.take (packets.size u)], ?_, ?_, ?_⟩, ?_, ?_⟩
  · simp only [Session.skip, consume]
    rw [add64_of_lt (by omega), List.length_drop]
    omega
  · rw [hhanded, List.append_assoc]
  · simp only [List.mem_append, List.mem_singleton]
    rintro f (hf | rfl)
    · exact hall f hf
    · exact hV
  · rw [hframes, hcut, List.append_assoc, List.singleton_append]
  · rw [h.rest, hcut]
  · rw [h.malformed, hcut]

/-- Once no frame is left, all of them were handed over. -/
theorem Parsing.handed_eq {old : List (List UInt8)} {whole u : List UInt8} {s : Reader}
    (h : Parsing V old whole u s) {malformed : Bool} (hstuck : Stuck u malformed) :
    s.handed = old ++ (packets.cut whole).frames ∧ ∀ f ∈ (packets.cut whole).frames, V f := by
  obtain ⟨frames, hhanded, hall, hframes⟩ := h.handed
  rw [hstuck, List.append_nil] at hframes
  rw [hframes]
  exact ⟨hhanded, hall⟩

/-- The parsing loop, for a handler that serves every frame of `whole`. -/
theorem wp_parse (hserves : Serves ok bad execute G V R) {old : List (List UInt8)}
    {whole u : List UInt8} {s : Reader} (hG : ∀ f ∈ (packets.cut whole).frames, G f)
    (h : Parsing V old whole u s) {turns : Nat} (hturns : u.length < turns) :
    Prog.wp ok bad (parse (port execute) turns) (fun b s' =>
      if b then ∃ u', Parsing V old whole u' s' ∧ Stuck u' false
      else (∃ u', Parsing V old whole u' s' ∧ Stuck u' true) ∨ R) s := by
  refine Session.wp_parse (port execute) (R := fun _ => R) (fun u s h => h.holds) ?_ turns u s h hturns
  intro u s hI hsize hlen
  have hfront : packets.cut u = _ := packets.cut_frame (by simp only [packets_header]; omega) hsize hlen
  have hmem : u.take (packets.size u) ∈ (packets.cut whole).frames := by
    obtain ⟨frames, -, -, hframes⟩ := hI.handed
    rw [hframes, hfront]
    simp
  refine Prog.wp_mono (fun b s' hb => ?_) (hserves.execute s u hI.holds hsize hlen (hG _ hmem))
  cases b with
  | false => exact hb
  | true =>
      obtain ⟨rfl, hV⟩ := hb
      exact ⟨rfl, hI.step hsize hlen hV⟩

/-- Bytes with no complete frame in them leave room in the buffer. -/
theorem length_lt_of_stuck {u : List UInt8} (h : Stuck u false) : u.length < getSize := by
  have hB := getSize_eq
  have hfit : packets.size u < getSize := size_lt_getSize (.ofBytes u)
  by_contra hlong
  have hheader : packets.header ≤ u.length := by
    rw [packets_header]
    omega
  by_cases hbad : packets.size u < packets.header
  · rw [Stuck, packets.cut_malformed hheader hbad] at h
    exact absurd (congrArg Cut.malformed h) (by simp)
  · rw [Stuck, packets.cut_frame hheader (Nat.not_lt.mp hbad) (by omega)] at h
    exact absurd (congrArg Cut.frames h) (by simp)

/-- Between two completions: `stream` has arrived, its frames are handed over,
and a `WSARecv` is posted after its incomplete tail. -/
structure Waiting (V : List UInt8 → Prop) (stream u : List UInt8) (s : Reader) : Prop where
  posted : Posted u s
  frames : (packets.cut stream).frames = s.handed
  rest : (packets.cut stream).rest = u
  sound : (packets.cut stream).malformed = false
  all : ∀ f ∈ s.handed, V f

/-- What is left over holds no frame. -/
theorem Waiting.stuck {stream u : List UInt8} {s : Reader} (h : Waiting V stream u s) :
    Stuck u false := by
  have hrest := packets.cut_rest stream
  rw [h.rest, h.sound] at hrest
  exact hrest

/-- The stream with the next chunk, cut where the session resumes. -/
theorem Waiting.cut_append {stream u : List UInt8} {s : Reader} (h : Waiting V stream u s)
    (chunk : List UInt8) :
    packets.cut (stream ++ chunk) = ⟨s.handed ++ (packets.cut (u ++ chunk)).frames,
      (packets.cut (u ++ chunk)).rest, (packets.cut (u ++ chunk)).malformed⟩ := by
  rw [Framing.cut_append, h.sound, h.frames, h.rest, if_neg Bool.false_ne_true]

/-- `OnRead` hands over exactly the frames that the new bytes complete. -/
theorem wp_onRead (hserves : Serves ok bad execute G V R) {stream u : List UInt8} {s : Reader}
    (h : Waiting V stream u s) {chunk : List UInt8}
    (hlen : chunk.length ≤ s.session.readOv_.wsaBuf_.len)
    (hG : ∀ f ∈ (packets.cut (stream ++ chunk)).frames, G f) :
    Prog.wp ok bad (onRead (port execute) chunk.length) (fun b s' =>
      if b then ∃ u', Waiting V (stream ++ chunk) u' s'
      else (packets.cut (stream ++ chunk)).malformed = true ∧
        s'.handed = (packets.cut (stream ++ chunk)).frames ∧ (∀ f ∈ s'.handed, V f) ∨ R)
      (deliver chunk s) := by
  have hB := getSize_eq
  have hroom := length_lt_of_stuck h.stuck
  have hlow := h.posted.low
  rw [h.posted.wsaBuf] at hlen
  simp only at hlen
  rw [h.cut_append] at hG ⊢
  simp only at hG ⊢
  -- the kernel wrote the chunk where the waiting bytes end
  have hholds : ((deliver chunk s).session.readOv_.produce chunk.length).Holds (u ++ chunk) := by
    have happ := h.posted.holds.append chunk (by omega) (by omega)
    have hbuf : s.session.readOv_.wsaBuf_.buf = s.session.readOv_.writePos_ := by
      rw [h.posted.wsaBuf]
    simp only [deliver, hbuf]
    exact happ
  generalize hs₁ : ({ deliver chunk s with
    session.readOv_ := (deliver chunk s).session.readOv_.produce chunk.length } : Reader) = s₁
  have hparsing : Parsing V s.handed (u ++ chunk) (u ++ chunk) s₁ := by
    subst hs₁
    refine ⟨hholds, ?_, ⟨[], ?_, ?_, ?_⟩, rfl, rfl⟩
    · simp only [deliver, produce, List.length_append]
      omega
    · simp only [deliver, List.append_nil]
    · simp only [List.not_mem_nil, false_implies, implies_true]
    · rw [List.nil_append]
  have havail : s₁.session.readOv_.available = (u ++ chunk).length := hparsing.holds.available
  refine Session.wp_onRead (port execute) hs₁.symm ?_
  refine Prog.wp_mono (fun b s₂ hb => ?_)
    (wp_parse hserves (fun f hf => hG f (List.mem_append_right _ hf)) hparsing
      (Nat.lt_succ_of_le havail.ge))
  cases b with
  | false =>
      rcases hb with ⟨u', hp, hstuck⟩ | hR
      · obtain ⟨hhanded, hall⟩ := hp.handed_eq hstuck
        refine .inl ⟨?_, hhanded, fun f hf => ?_⟩
        · rw [hp.malformed, hstuck]
        · rw [hhanded, List.mem_append] at hf
          exact hf.elim (h.all f) (hall f)
      · exact .inr hR
  | true =>
      obtain ⟨u', hp, hstuck⟩ := hb
      obtain ⟨hhanded, hall⟩ := hp.handed_eq hstuck
      have hhigh : s₂.session.readOv_.readPos_ < 2 * getSize := by
        have := hp.high
        omega
      refine wp_registerRead hp.holds.rewind (Holds.rewind_lt hhigh) (length_lt_of_stuck hstuck) ?_
      intro s' r hr (hsame : s'.handed = s₂.handed) hposted
      cases hpost : r.posted with
      | false => exact .inr ((hserves.recv s' _ r hr).resolve_left (by simp [hpost]))
      | true =>
          refine ⟨u', hposted, ?_, ?_, ?_, fun f hf => ?_⟩
          · rw [h.cut_append, hsame, hhanded]
          · rw [h.cut_append, hp.rest, hstuck]
          · rw [h.cut_append, hp.malformed, hstuck]
          · rw [hsame, hhanded, List.mem_append] at hf
            exact hf.elim (h.all f) (hall f)

/-! ## the whole stream -/

/-- More bytes never undo a frame. -/
theorem mem_frames_append {s t : List UInt8} {f : List UInt8} (h : f ∈ (packets.cut s).frames) :
    f ∈ (packets.cut (s ++ t)).frames := by
  rw [Framing.cut_append]
  split_ifs
  · exact h
  · exact List.mem_append_left _ h

/-- What a run over the rest of a stream may end in. -/
def Outcome (bad : Fault → Prop) (V : List UInt8 → Prop) (R : Prop) (stream : List UInt8) :
    Except Fault (Bool × Reader) → Prop
  | .ok (true, s) => ∃ u, Waiting V stream u s
  | .ok (false, s) => (packets.cut stream).malformed = true ∧
      s.handed = (packets.cut stream).frames ∧ (∀ f ∈ s.handed, V f) ∨ R
  | .error e => bad e

/-- A run over any pieces of a stream. -/
theorem outcome_of_receives (hserves : Serves ok bad execute G V R) {s : Reader}
    {chunks : List (List UInt8)} {r : Except Fault (Bool × Reader)}
    (hr : Receives ok (port execute) s chunks r) {stream u : List UInt8}
    (h : Waiting V stream u s) (hfit : Fitting ok (port execute) s chunks)
    (hG : ∀ f ∈ (packets.cut (stream ++ chunks.flatten)).frames, G f) :
    Outcome bad V R (stream ++ chunks.flatten) r := by
  induction hr generalizing stream u with
  | nil s => exact ⟨u, by rwa [List.flatten_nil, List.append_nil]⟩
  | @more s s' chunk chunks r hexec hr ih =>
      rw [List.flatten_cons, ← List.append_assoc] at hG ⊢
      obtain ⟨u', hu'⟩ := hexec.post (wp_onRead hserves h hfit.2.1 fun f hf =>
        hG f (mem_frames_append hf))
      exact ih hu' (hfit.2.2 _ hexec) hG
  | @stop s s' chunk chunks hexec =>
      rw [List.flatten_cons, ← List.append_assoc] at hG ⊢
      refine Or.imp_left ?_ (hexec.post (wp_onRead hserves h hfit.2.1 fun f hf =>
        hG f (mem_frames_append hf)))
      rintro ⟨hbad, hhanded, hall⟩
      rw [Framing.cut_append, if_pos hbad]
      exact ⟨rfl, hhanded, hall⟩
  | @fault s chunk chunks e hexec =>
      rw [List.flatten_cons, ← List.append_assoc] at hG
      exact hexec.tolerated (wp_onRead hserves h hfit.2.1 fun f hf => hG f (mem_frames_append hf))

/-- A stream no longer than the buffer may arrive in any pieces. -/
theorem fitting_of_length (hserves : Serves ok bad execute G V R) {s : Reader}
    {chunks : List (List UInt8)} {stream u : List UInt8} (h : Waiting V stream u s)
    (hne : ∀ chunk ∈ chunks, chunk ≠ []) (hlen : (stream ++ chunks.flatten).length ≤ getSize)
    (hG : ∀ f ∈ (packets.cut (stream ++ chunks.flatten)).frames, G f) :
    Fitting ok (port execute) s chunks := by
  induction chunks generalizing s stream u with
  | nil => trivial
  | cons chunk chunks ih =>
      rw [List.flatten_cons, ← List.append_assoc] at hlen hG
      have hrest := congrArg List.length (packets.flatten_cut stream)
      rw [h.rest, List.length_append] at hrest
      have hroom : chunk.length ≤ s.session.readOv_.wsaBuf_.len := by
        rw [h.posted.wsaBuf]
        simp only [List.length_append] at hlen ⊢
        omega
      refine ⟨hne chunk List.mem_cons_self, hroom, fun s' hexec => ?_⟩
      obtain ⟨u', hu'⟩ := hexec.post (wp_onRead hserves h hroom fun f hf =>
        hG f (mem_frames_append hf))
      exact ih hu' (fun c hc => hne c (List.mem_cons_of_mem _ hc)) hlen hG

/-- Every stream has a run over its pieces. -/
theorem exists_receives (hok : ∀ β s (q : SessionCall β), ∃ a, ok β s q a)
    (P : SessionPort Reader SessionCall) (s : Reader) (chunks : List (List UInt8)) :
    ∃ r, Receives ok P s chunks r := by
  induction chunks generalizing s with
  | nil => exact ⟨_, .nil s⟩
  | cons chunk chunks ih =>
      obtain ⟨r, hr⟩ := Prog.exists_exec hok (onRead P chunk.length) (deliver chunk s)
      rcases r with e | ⟨_ | _, s'⟩
      · exact ⟨_, .fault hr⟩
      · exact ⟨_, .stop hr⟩
      · obtain ⟨r, hr'⟩ := ih s'
        exact ⟨r, .more hr hr'⟩

/-- A fresh session with a `WSARecv` posted has received nothing. -/
theorem Posted.waiting {s : Reader} (h : Posted [] s) (hhanded : s.handed = []) :
    Waiting V [] [] s := by
  have hcut : packets.cut [] = ⟨[], [], false⟩ := packets.cut_short (by simp)
  refine ⟨h, ?_, ?_, ?_, ?_⟩
  · rw [hcut, hhanded]
  · rw [hcut]
  · rw [hcut]
  · simp [hhanded]

theorem succeed_total (β : Type) (s : Reader) (q : SessionCall β) : ∃ a, succeed β s q a := by
  cases q with
  | handle packet => exact ⟨true, rfl⟩
  | wsaRecv wsaBuf => exact ⟨.ok, rfl⟩
  | getState handle => exact ⟨none, trivial⟩
  | setState handle newState => exact ⟨true, trivial⟩
  | connectSession handle => exact ⟨true, trivial⟩
  | disconnectSession handle => exact ⟨(), trivial⟩
  | wsaSend wsaBuf => exact ⟨.ok, trivial⟩
  | disconnectEx => exact ⟨(1, 0), trivial⟩

/-- When every handler succeeds, every frame is served. -/
theorem serves_call : Serves succeed (fun _ => False) call (fun _ => True) (fun _ => True) False where
  execute s u h hsize hlen _ := by
    rw [wp_call h hsize hlen]
    rintro b rfl
    exact ⟨rfl, trivial⟩
  recv s w r h := .inl h

/-- **Framing is independent of fragmentation**: from an empty buffer, whatever
pieces a stream arrives in, the packets handed to the handlers are the frames of
the stream; `OnRead` returns false exactly when the stream has come to a header
that announces less than itself, and otherwise the incomplete tail is left. -/
theorem framing (s : Reader) (hposted : Posted [] s) (hhanded : s.handed = [])
    (chunks : List (List UInt8)) (hfit : Fitting succeed (port call) s chunks) :
    (∃ r, Receives succeed (port call) s chunks r) ∧
    ∀ r, Receives succeed (port call) s chunks r →
      ∃ s', r = .ok (!(packets.cut chunks.flatten).malformed, s') ∧
        s'.handed = (packets.cut chunks.flatten).frames ∧
        ((packets.cut chunks.flatten).malformed = false →
          s'.session.readOv_.Holds (packets.cut chunks.flatten).rest) := by
  refine ⟨exists_receives succeed_total _ s chunks, fun r hr => ?_⟩
  have hout := outcome_of_receives serves_call hr (hposted.waiting hhanded) hfit (by simp)
  rw [List.nil_append] at hout
  rcases r with e | ⟨_ | _, s'⟩
  · exact hout.elim
  · obtain ⟨hbad, hhanded', -⟩ := hout.resolve_right id
    refine ⟨s', by rw [hbad]; rfl, hhanded', fun h => ?_⟩
    rw [hbad] at h
    exact Bool.noConfusion h
  · obtain ⟨u, hu⟩ := hout
    refine ⟨s', by rw [hu.sound]; rfl, hu.frames.symm, fun _ => ?_⟩
    rw [hu.rest]
    exact hu.posted.holds

/-- A packet cut in its header and in its body, and the first half of the next header. -/
def pieces : List (List UInt8) := [[6, 0], [2, 0, 7], [8, 4], [0]]

theorem cut_pieces : packets.cut pieces.flatten = ⟨[[6, 0, 2, 0, 7, 8]], [4, 0], false⟩ := by
  have hwhole : packets.Whole [6, 0, 2, 0, 7, 8] := ⟨by decide, by decide⟩
  have hcut := hwhole.cut_append [4, 0]
  rw [packets.cut_short (s := [4, 0]) (by decide)] at hcut
  exact hcut

/-- A session with an empty buffer, whose `WSARecv` is posted. -/
def listening : Reader := ⟨{ readOv_.wsaBuf_ := ⟨0, 65536⟩ }, []⟩

theorem posted_listening : Posted [] listening := ⟨.nil rfl (by decide), by decide, rfl⟩

theorem framing_pieces :
    (∃ r, Receives succeed (port call) listening pieces r) ∧
    ∀ r, Receives succeed (port call) listening pieces r →
      ∃ s', r = .ok (true, s') ∧ s'.handed = [[6, 0, 2, 0, 7, 8]] ∧
        s'.session.readOv_.Holds [4, 0] := by
  have hfit : Fitting succeed (port call) listening pieces :=
    fitting_of_length serves_call (posted_listening.waiting rfl) (by decide) (by decide) (by simp)
  obtain ⟨hexists, hall⟩ := framing listening posted_listening rfl pieces hfit
  refine ⟨hexists, fun r hr => ?_⟩
  obtain ⟨s', rfl, hhanded, hholds⟩ := hall r hr
  rw [cut_pieces] at hhanded hholds ⊢
  exact ⟨s', rfl, hhanded, hholds rfl⟩

/-! ## the handler table -/

/-- The id of a packet. -/
def packetId (packet : List UInt8) : UInt16 := (PacketHeader.ofBytes packet).id

/-- A fault of `Execute`: an index outside the table, or an empty entry. -/
def AtTable (e : Fault) : Prop := e = .outOfRange .handlers ∨ e = .emptyFunction

/-- The id of the waiting bytes is that of the frame at their front. -/
theorem packetId_take {u : List UInt8} {n : Nat} (hn : 4 ≤ n) (hlen : n ≤ u.length) :
    packetId (u.take n) = packetId u := by
  have h := PacketHeader.ofBytes_append (u.drop n) (s := u.take n) (by rw [List.length_take]; omega)
  rw [List.take_append_drop] at h
  rw [packetId, packetId, h]

/-- `Execute` calls the handler of a registered id, and faults at any other. -/
theorem wp_execute {post : Bool → Reader → Prop} {s : Reader} {u : List UInt8}
    (h : s.session.readOv_.Holds u) (hlen : 4 ≤ u.length)
    (hcall : PacketHandler.Registered (packetId u) →
      Prog.wp ok bad (call s.session.readOv_.readPos_) post s)
    (hbad : ¬ PacketHandler.Registered (packetId u) → ∀ e, AtTable e → bad e) :
    Prog.wp ok bad (Reader.execute s.session.readOv_.readPos_) post s := by
  have hheader : (s.session.readOv_.load s.session.readOv_.readPos_ PacketHeader.sizeOf).map
      PacketHeader.ofBytes = .ok (.ofBytes u) := by
    rw [PacketHeader.sizeOf, h.load hlen, Except.map, ofBytes_take hlen]
  unfold Reader.execute PacketHandler.execute
  rw [Prog.bind_eq, Prog.wp_bind, Prog.wp_lens_view hheader, PacketHandler.handlers_get?]
  rw [packetId, PacketHandler.registered_iff] at hcall hbad
  split_ifs with h0 h1 h2
  · exact hbad (by omega) _ (.inr rfl)
  · exact hcall (.inl h1)
  · exact hcall (.inr h2)
  · exact hbad (by omega) _ (.inl rfl)

/-- Frames with a registered id are served, whatever the environment does. -/
theorem serves_registered : Serves anything (fun _ => False) Reader.execute
    (fun f => PacketHandler.Registered (packetId f)) (fun _ => True) True where
  execute s u h hsize hlen hG := by
    rw [packetId_take hsize hlen] at hG
    refine wp_execute h (by omega) (fun _ => ?_) fun hno => absurd hG hno
    rw [wp_call h hsize hlen]
    rintro (_ | _) -
    · trivial
    · exact ⟨rfl, trivial⟩
  recv _ _ _ _ := .inr trivial

/-- When no `WSARecv` and no handler fails, a run that does not fault at the
table has handed over registered frames only. -/
theorem serves_unregistered : Serves succeed AtTable Reader.execute (fun _ => True)
    (fun f => PacketHandler.Registered (packetId f)) False where
  execute s u h hsize hlen _ := by
    refine wp_execute h (by omega) (fun hreg => ?_) fun _ e he => he
    rw [wp_call h hsize hlen]
    rintro b rfl
    exact ⟨rfl, by rwa [packetId_take hsize hlen]⟩
  recv s w r h := .inl h

/-- Whatever happens when nothing fails may happen. -/
theorem Receives.weaken {P : SessionPort Reader SessionCall} {s : Reader}
    {chunks : List (List UInt8)} {r : Except Fault (Bool × Reader)}
    (h : Receives succeed P s chunks r) : Receives anything P s chunks r := by
  induction h with
  | nil s => exact .nil s
  | more hexec _ ih => exact .more (hexec.weaken fun _ _ _ _ _ => trivial) ih
  | stop hexec => exact .stop (hexec.weaken fun _ _ _ _ _ => trivial)
  | fault hexec => exact .fault (hexec.weaken fun _ _ _ _ _ => trivial)

theorem Fitting.strengthen {P : SessionPort Reader SessionCall} {s : Reader}
    {chunks : List (List UInt8)} (h : Fitting anything P s chunks) : Fitting succeed P s chunks := by
  induction chunks generalizing s with
  | nil => trivial
  | cons chunk chunks ih =>
      exact ⟨h.1, h.2.1, fun s' hs' => ih (h.2.2 s' (hs'.weaken fun _ _ _ _ _ => trivial))⟩

/-- A frame whose id has no handler takes some run to a fault at the table. -/
theorem exists_fault_of_unregistered {s : Reader} (hposted : Posted [] s) (hhanded : s.handed = [])
    {chunks : List (List UInt8)} (hfit : Fitting anything (port Reader.execute) s chunks)
    {f : List UInt8} (hf : f ∈ (packets.cut chunks.flatten).frames)
    (hno : ¬ PacketHandler.Registered (packetId f)) :
    ∃ e, AtTable e ∧ Receives anything (port Reader.execute) s chunks (.error e) := by
  obtain ⟨r, hr⟩ := exists_receives succeed_total (port Reader.execute) s chunks
  have hout := outcome_of_receives serves_unregistered hr (hposted.waiting hhanded)
    hfit.strengthen (fun _ _ => trivial)
  rw [List.nil_append] at hout
  rcases r with e | ⟨_ | _, s'⟩
  · exact ⟨e, hout, hr.weaken⟩
  · obtain ⟨-, hhanded', hall⟩ := hout.resolve_right id
    exact absurd (hall f (hhanded' ▸ hf)) hno
  · obtain ⟨u, hu⟩ := hout
    exact absurd (hu.all f (hu.frames ▸ hf)) hno

/-- **Malformed packets**: no run indexes the table out of range or calls an
empty handler exactly when every frame of the stream has a registered id. -/
theorem rejects_iff (s : Reader) (hposted : Posted [] s) (hhanded : s.handed = [])
    (chunks : List (List UInt8)) (hfit : Fitting anything (port Reader.execute) s chunks) :
    (∀ e, Receives anything (port Reader.execute) s chunks (.error e) →
      e ≠ .outOfRange .handlers ∧ e ≠ .emptyFunction) ↔
    ∀ f ∈ (packets.cut chunks.flatten).frames, PacketHandler.Registered (packetId f) := by
  constructor
  · intro h f hf
    by_contra hno
    obtain ⟨e, he, hr⟩ := exists_fault_of_unregistered hposted hhanded hfit hf hno
    exact he.elim (h e hr).1 (h e hr).2
  · intro hall e hr
    exact (outcome_of_receives serves_registered hr (hposted.waiting hhanded) hfit hall).elim

theorem rejects_iff_pieces :
    (∀ e, Receives anything (port Reader.execute) listening pieces (.error e) →
      e ≠ .outOfRange .handlers ∧ e ≠ .emptyFunction) ↔
    ∀ f ∈ [[6, 0, 2, 0, 7, 8]], PacketHandler.Registered (packetId f) := by
  have hregistered : ∀ f ∈ (packets.cut ([] ++ pieces.flatten)).frames,
      PacketHandler.Registered (packetId f) := by
    rw [List.nil_append, cut_pieces]
    decide
  have hiff := rejects_iff listening posted_listening rfl pieces
    (fitting_of_length serves_registered (posted_listening.waiting rfl) (by decide) (by decide)
      hregistered)
  rw [cut_pieces] at hiff
  exact hiff

/-- The packet of four bytes with id `65535` runs `Execute` into a fault. -/
theorem executes_unregistered :
    ∃ e, (e = .outOfRange .handlers ∨ e = .emptyFunction) ∧
      Receives anything (port Reader.execute) ⟨{ readOv_.wsaBuf_ := ⟨0, 65536⟩ }, []⟩
        [[4, 0, 255, 255]] (.error e) := by
  have hcut : packets.cut [4, 0, 255, 255] = ⟨[[4, 0, 255, 255]], [], false⟩ := by
    rw [packets.cut_frame (by decide) (by decide) (by decide)]
    rw [show ([4, 0, 255, 255] : List UInt8).drop (packets.size [4, 0, 255, 255]) = [] by decide,
      packets.cut_short (by decide)]
    rfl
  exact exists_fault_of_unregistered posted_listening rfl ⟨by simp, by decide, fun _ _ => trivial⟩
    (f := [4, 0, 255, 255]) (by rw [List.flatten_singleton, hcut]; simp) (by decide)

end Reader

end ServerStudy
