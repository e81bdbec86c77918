import ServerStudy.Session.Read
import ServerStudy.Threads

/-!
# ServerStudy.Session.Reader

The receiving side of a session among other threads, for a thread that has it to
itself: nobody else changes `readOv_`, whatever becomes of the rest of the session.

* `Waits`, `Awaits` — the positions while bytes are parsed, and while a receive is
  outstanding;
* `Reader` — what a thread does with `readOv_`, it does to the value it knows;
* `Reader.safe_parse`, `Reader.safe_onRead` — it executes every frame that is
  complete, within the bytes received, and none of its accesses faults.
-/

namespace ServerStudy

namespace OverlappedEx

variable {ov : OverlappedEx} {rest : List UInt8}

/-- `rest` is still to be parsed. -/
structure Waits (ov : OverlappedEx) (rest : List UInt8) : Prop where
  holds : ov.Holds rest
  fits : rest.length ≤ getSize
  high : ov.readPos_ + rest.length < 2 * getSize

/-- A receive is outstanding for all the room there is. -/
structure Awaits (ov : OverlappedEx) (rest : List UInt8) : Prop where
  holds : ov.Holds rest
  fits : rest.length ≤ getSize
  low : ov.readPos_ < getSize
  wsaBuf : ov.wsaBuf_ = ⟨ov.writePos_, getSize - rest.length⟩

theorem Waits.consume (h : ov.Waits rest) {n : Nat} (hn : n ≤ rest.length) :
    (ov.consume n).Waits (rest.drop n) := by
  have hB := getSize_eq
  have hhigh := h.high
  have hfits := h.fits
  refine ⟨h.holds.consume hn, ?_, ?_⟩
  · rw [List.length_drop]
    omega
  · simp only [OverlappedEx.consume]
    rw [add64_of_lt (by omega), List.length_drop]
    omega

theorem Waits.rewind (h : ov.Waits rest) :
    ov.rewind.Waits rest ∧ ov.rewind.readPos_ < getSize := by
  have hhigh := h.high
  have hfits := h.fits
  have hlow : ov.rewind.readPos_ < getSize := Holds.rewind_lt (by omega)
  exact ⟨⟨h.holds.rewind, hfits, by omega⟩, hlow⟩

/-- The bytes received are the last of those to be parsed. -/
theorem Awaits.received (h : ov.Awaits rest) {chunk : List UInt8}
    (hlen : chunk.length ≤ ov.wsaBuf_.len) :
    (({ ov with buffer_ := ov.buffer_.write ov.wsaBuf_.buf chunk } : OverlappedEx).produce
      chunk.length).Waits (rest ++ chunk) := by
  have hlow := h.low
  have hfits := h.fits
  have hbuf : ov.wsaBuf_.buf = ov.writePos_ := by rw [h.wsaBuf]
  rw [h.wsaBuf] at hlen
  simp only at hlen
  rw [hbuf]
  refine ⟨h.holds.append chunk (by omega) (by omega), ?_, ?_⟩
  · rw [List.length_append]
    omega
  · rw [List.length_append]
    show ov.readPos_ + _ < _
    omega

end OverlappedEx

variable {S L : Type} {Q : Type → Type} {T : Type} {C : Client S L Q Fault}

/-- One program after another, with what is known in between. -/
theorem Safe.then {E α β : Type} {C : Client S L Q E} {D : Discipline C T}
    {ok : Answers (S × C.Reg) Q} {K : Multiset T → Prop} {p : Prog (S × C.Reg) Q E α}
    {f : α → Prog (S × C.Reg) Q E β} {mid : α → C.Reg → Multiset T → Prop}
    {post : β → C.Reg → Multiset T → Prop} {reg : C.Reg} {r : Multiset T}
    (hp : Safe D ok K p mid reg r)
    (hf : ∀ a reg' r', mid a reg' r' → Safe D ok K (f a) post reg' r') :
    Safe D ok K (p.bind f) post reg r :=
  Safe.bind (Safe.mono (fun _ h => h) hf hp)

namespace Session

open OverlappedEx

/-- A thread with the registers `reg` and the tokens `r` such that `I ov reg r` has `readOv_` to
itself, and it is `ov`.  It may read it and replace it; another field it reads may be anything. -/
structure Reader (D : Discipline C T) (ok : Answers (S × C.Reg) Q) (P : SessionPort (S × C.Reg) Q)
    (I : OverlappedEx → C.Reg → Multiset T → Prop) : Prop where
  read : ∀ {β : Type} (f : Session → β) {ov reg r}, I ov reg r →
    Safe D ok (fun _ => True) (P.self.read f)
      (fun b reg' r' => (∃ x : Session, x.readOv_ = ov ∧ b = f x) ∧ I ov reg' r') reg r
  view : ∀ {β : Type} {f : Session → Except Fault β} {b : β} {ov reg r}, I ov reg r →
    (∀ x : Session, x.readOv_ = ov → f x = .ok b) →
    Safe D ok (fun _ => True) (P.self.view f) (fun b' reg' r' => b' = b ∧ I ov reg' r') reg r
  update : ∀ {β : Type} {f : Session → Except Fault (β × Session)} {b : β} {ov} (ov') {reg r},
    I ov reg r → (∀ x : Session, x.readOv_ = ov → f x = .ok (b, { x with readOv_ := ov' })) →
    Safe D ok (fun _ => True) (P.self.update f) (fun b' reg' r' => b' = b ∧ I ov' reg' r') reg r
  modify : ∀ {f : Session → Session} {ov} (ov') {reg r}, I ov reg r →
    (∀ x : Session, x.readOv_ = ov → f x = { x with readOv_ := ov' }) →
    Safe D ok (fun _ => True) (P.self.modify f) (fun _ reg' r' => I ov' reg' r') reg r

namespace Reader

variable {D : Discipline C T} {ok : Answers (S × C.Reg) Q} {P : SessionPort (S × C.Reg) Q}
  {I : OverlappedEx → C.Reg → Multiset T → Prop} {ov : OverlappedEx} {rest : List UInt8}
  {reg : C.Reg} {r : Multiset T}

/-- The header at the read position is that of the bytes to be parsed. -/
theorem safe_readHeader (hP : Reader D ok P I) (hI : I ov reg r) (h : ov.Holds rest)
    (h4 : 4 ≤ rest.length) :
    Safe D ok (fun _ => True) (readHeader P ov.readPos_)
      (fun b reg' r' => b = .ofBytes rest ∧ I ov reg' r') reg r := by
  refine hP.view hI fun x hx => ?_
  rw [hx, PacketHeader.sizeOf, h.load h4, Except.map, ofBytes_take h4]

/-- The loop of `OnRead`, if the packet handler leaves `readOv_` to the thread. -/
theorem safe_parse (hP : Reader D ok P I)
    (hexec : ∀ {ov rest reg r}, I ov reg r → ov.Waits rest → 4 ≤ packets.size rest →
      packets.size rest ≤ rest.length →
      Safe D ok (fun _ => True) (P.execute ov.readPos_) (fun _ reg' r' => I ov reg' r') reg r)
    (turns : Nat) (hI : I ov reg r) (h : ov.Waits rest) (hturns : rest.length < turns) :
    Safe D ok (fun _ => True) (parse P turns)
      (fun _ reg' r' => ∃ ov' rest', ov'.Waits rest' ∧ I ov' reg' r') reg r := by
  induction turns generalizing ov rest reg r with
  | zero => omega
  | succ turns ih =>
      refine (hP.read _ hI).then ?_
      rintro available reg r ⟨⟨x, hx, rfl⟩, hI⟩
      rw [hx, h.holds.available]
      split_ifs with hshort
      · exact ⟨trivial, ov, rest, h, hI⟩
      rw [PacketHeader.sizeOf, Nat.not_lt] at hshort
      refine (hP.read _ hI).then ?_
      rintro off reg r ⟨⟨x, hx, rfl⟩, hI⟩
      rw [hx]
      refine (hP.safe_readHeader hI h.holds hshort).then ?_
      rintro header reg r ⟨rfl, hI⟩
      split_ifs with hsize hpart
      · exact ⟨trivial, ov, rest, h, hI⟩
      · exact ⟨trivial, ov, rest, h, hI⟩
      rw [not_or, PacketHeader.sizeOf, Nat.not_lt] at hsize
      rw [Nat.not_lt] at hpart
      refine (hexec hI h hsize.1 hpart).then fun success reg r hI => ?_
      split_ifs
      · exact ⟨trivial, ov, rest, h, hI⟩
      refine (hP.safe_readHeader hI h.holds hshort).then ?_
      rintro header reg r ⟨rfl, hI⟩
      refine (hP.modify (ov.consume (packets.size rest)) hI fun x hx => ?_).then
        fun _ reg r hI => ih hI (h.consume hpart) ?_
      · rw [hx, packets_size]
      · rw [List.length_drop, packets_size]
        omega

variable (hassign : ∀ i handle, P.assignSessionPtr i handle = .done ())
  (hreset : ∀ i, P.resetSessionPtr i = .done ()) {J : C.Reg → Multiset T → Prop} {refuses : Prop}
  (hrecv : ∀ {ov rest reg r}, I ov reg r → ov.Awaits rest →
    Safe D ok (fun _ => True) (P.wsaRecv ov.wsaBuf_)
      (fun result reg' r' => if result.posted then J reg' r' else refuses ∧ I ov reg' r') reg r)
include hassign hreset hrecv

/-- `RegisterRead` posts a receive for the room there is; it fails for want of room, or if
`WSARecv` does. -/
theorem safe_registerRead (hP : Reader D ok P I) (hI : I ov reg r) (h : ov.Waits rest)
    (hlow : ov.readPos_ < getSize) :
    Safe D ok (fun _ => True) (registerRead P) (fun b reg' r' =>
      if b then J reg' r' else (rest.length = getSize ∨ refuses) ∧ ∃ ov', I ov' reg' r') reg r := by
  have hfits := h.fits
  refine (hP.update (b := getSize - rest.length)
    { ov with wsaBuf_.len := getSize - rest.length } hI fun x hx => ?_).then ?_
  · rw [hx, h.holds.room_eq hfits]
  rintro len reg r ⟨rfl, hI⟩
  split_ifs with hfull
  · exact ⟨trivial, .inl (by omega), _, hI⟩
  refine (hP.modify { ov with
    ioType_ := .kRecv, wsaBuf_ := ⟨ov.writePos_, getSize - rest.length⟩ } hI fun x hx => ?_).then
    fun _ reg r hI => ?_
  · rw [hx]
  refine (hP.read _ hI).then ?_
  rintro handle reg r ⟨-, hI⟩
  rw [hassign]
  refine Safe.bind ⟨trivial, (hP.read _ hI).then ?_⟩
  rintro wsaBuf reg r ⟨⟨x, hx, rfl⟩, hI⟩
  rw [hx]
  refine (hrecv hI ⟨⟨h.holds.writePos, h.holds.slice, h.holds.mapped⟩, hfits, hlow, rfl⟩).then
    fun result reg r hresult => ?_
  cases result with
  | ok => exact ⟨trivial, hresult⟩
  | socketError errorCode =>
      simp only [WsaResult.posted, decide_eq_true_eq] at hresult
      dsimp only
      split_ifs at hresult ⊢
      · exact ⟨trivial, hresult⟩
      · rw [hreset]
        exact ⟨trivial, .inr hresult.1, _, hresult.2⟩

/-- `OnRead` of `n` bytes: afterwards the next receive is outstanding, or the thread still has
`readOv_` to itself. -/
theorem safe_onRead (hP : Reader D ok P I)
    (hexec : ∀ {ov rest reg r}, I ov reg r → ov.Waits rest → 4 ≤ packets.size rest →
      packets.size rest ≤ rest.length →
      Safe D ok (fun _ => True) (P.execute ov.readPos_) (fun _ reg' r' => I ov reg' r') reg r)
    {n : Nat} (hI : I ov reg r) (h : (ov.produce n).Waits rest) :
    Safe D ok (fun _ => True) (onRead P n)
      (fun b reg' r' => if b then J reg' r' else ∃ ov', I ov' reg' r') reg r := by
  refine (hP.modify (ov.produce n) hI fun x hx => by rw [hx]).then fun _ reg r hI => ?_
  refine (hP.read _ hI).then ?_
  rintro turns reg r ⟨⟨x, hx, rfl⟩, hI⟩
  rw [hx, h.holds.available]
  refine (hP.safe_parse hexec _ hI h (Nat.lt_succ_self _)).then ?_
  rintro success reg r ⟨ov', rest', h', hI⟩
  split_ifs with hfailed
  · exact ⟨trivial, ov', hI⟩
  refine (hP.modify ov'.rewind hI fun x hx => by rw [hx]).then fun _ reg r hI => ?_
  refine (hP.safe_registerRead hassign hreset hrecv hI h'.rewind.1 h'.rewind.2).then
    fun posted reg r hposted => ?_
  cases posted with
  | false => exact ⟨trivial, hposted.2⟩
  | true => exact ⟨trivial, hposted⟩

end Reader

end Session

end ServerStudy
