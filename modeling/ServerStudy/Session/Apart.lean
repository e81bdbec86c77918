import Mathlib.Data.Multiset.AddSub
import ServerStudy.Session.Write

/-!
# ServerStudy.Session.Apart

A session apart from its manager, for whoever keeps the state of the slot beside
it and leaves the pointers of its operations to a count.

* `wp_connectLocked`, `wp_disconnectLocked` — what `Connect` and `Disconnect` do to
  the state of the slot;
* `Outgoing` — while the session is sending, at most one `WSASend` is not dealt
  with; and what each part of `SendPacket` and `OnWrite` makes of that.
-/

namespace ServerStudy

/-- The state of the slot is a part of the state, and what a `sessionPtr_` holds on
to is left out. -/
structure SessionPort.Apart {σ : Type} {Q : Type → Type} (P : SessionPort σ Q)
    (state : Lens σ SessionState) : Prop where
  assignSessionPtr : ∀ i handle, P.assignSessionPtr i handle = .done ()
  resetSessionPtr : ∀ i, P.resetSessionPtr i = .done ()
  getState : ∀ handle, P.getState handle = state.read fun x => some x.toNat
  setState : ∀ handle newState, P.setState handle newState =
    (state.modify fun _ => newState).bind fun _ => .done true
  connectSession : ∀ handle, P.connectSession handle =
    (state.modify fun _ => .kConnected).bind fun _ => .done true

namespace Session

open OverlappedEx

variable {σ : Type} {Q : Type → Type} {ok : Answers σ Q} {bad : Fault → Prop}
  {P : SessionPort σ Q} {state : Lens σ SessionState} {s : σ}

/-! ## the state of the slot -/

/-- The locked section of `Connect` moves a pending session on. -/
theorem wp_connectLocked (hP : P.Apart state) {post : Bool → σ → Prop} :
    Prog.wp ok bad (connectLocked P) post s ↔
      if state.get s = .kPending then post true (state.set .kConnected s) else post false s := by
  simp only [connectLocked, hP.getState, hP.connectSession, Prog.wp_atomically, Prog.bind_eq,
    Prog.wp_bind, Prog.wp_lens_read, Prog.pure_eq, Prog.wp_ite, Prog.wp_done,
    Prog.wp_lens_modify, Bool.not_true, Bool.false_eq_true, if_false]
  cases state.get s <;> simp [SessionState.toNat]

/-- The locked section of `Disconnect` moves a pending or connected session on, and
tells what it found otherwise. -/
theorem wp_disconnectLocked (hP : P.Apart state) {post : Option Bool → σ → Prop} :
    Prog.wp ok bad (disconnectLocked P) post s ↔
      if state.get s = .kPending ∨ state.get s = .kConnected then
        post none (state.set .kDisconnecting s)
      else post (some (decide (state.get s = .kDisconnecting))) s := by
  simp only [disconnectLocked, hP.getState, hP.setState, Prog.wp_atomically, Prog.bind_eq,
    Prog.wp_bind, Prog.wp_lens_read, Prog.pure_eq, Prog.wp_ite, Prog.wp_done,
    Prog.wp_lens_modify, Bool.not_true, Bool.false_eq_true, if_false]
  cases state.get s <;> simp [SessionState.toNat]

/-- `RegisterWriteInternal` returns whether the `WSASend` was posted. -/
theorem wp_registerWriteInternal_apart (hP : P.Apart state) {post : Bool → σ → Prop}
    (hsending : (P.self.get s).isSending_ = true)
    (h : Prog.wp ok bad (P.wsaSend (P.self.get s).prepareSend.writeOv_.wsaBuf_)
      (fun result s' => post result.posted s') (P.self.set (P.self.get s).prepareSend s)) :
    Prog.wp ok bad (registerWriteInternal P) post s := by
  refine wp_registerWriteInternal P hsending ?_
  rw [hP.assignSessionPtr, Prog.wp_done, P.self.get_set]
  refine Prog.wp_mono (fun result s' hpost => ?_) h
  rw [hP.resetSessionPtr, Prog.wp_done]
  split_ifs with hposted
  · rwa [hposted] at hpost
  · rwa [Bool.eq_false_iff.mpr hposted] at hpost

/-! ## what is not dealt with -/

/-- `due` are the `WSASend`s not dealt with, by their lengths.  While the session is
sending there is one, of a length that `fits`, for some of what waits; or there is
none, and the session is `stuck`. -/
structure Outgoing (fits : Nat → Prop) (stuck : Prop) (s : Session) (due : Multiset Nat)
    (waiting : List UInt8) : Prop where
  queued : s.Queued waiting
  idle : s.isSending_ = false → waiting = [] ∧ due = 0
  sending : s.isSending_ = true →
    due = 0 ∧ stuck ∨ ∃ n, fits n ∧ n ≤ waiting.length ∧ due = {n}

namespace Outgoing

variable {fits : Nat → Prop} {stuck stuck' : Prop} {x y : Session} {due : Multiset Nat}
  {w : List UInt8}

/-- It is about the sending side alone. -/
theorem congr (h : Outgoing fits stuck x due w) (hov : y.writeOv_ = x.writeOv_)
    (hflag : y.isSending_ = x.isSending_) : Outgoing fits stuck y due w := by
  obtain ⟨⟨hholds, hlow, hfits⟩, hidle, hsending⟩ := h
  exact ⟨⟨hov ▸ hholds, hov ▸ hlow, hfits⟩, hflag ▸ hidle, hflag ▸ hsending⟩

/-- Being stuck may mean less. -/
theorem mono (h : Outgoing fits stuck x due w) (hstuck : due = 0 → stuck → stuck') :
    Outgoing fits stuck' x due w :=
  ⟨h.queued, h.idle, fun hsending => (h.sending hsending).imp_left fun ⟨hnone, hs⟩ =>
    ⟨hnone, hstuck hnone hs⟩⟩

/-- A `WSASend` not dealt with is the only one. -/
theorem of_mem (h : Outgoing fits stuck x due w) {n : Nat} (hn : n ∈ due) :
    x.isSending_ = true ∧ fits n ∧ n ≤ w.length ∧ due = {n} := by
  have hsome : due ≠ 0 := fun hnone => Multiset.notMem_zero n (hnone ▸ hn)
  cases hsending : x.isSending_ with
  | false => exact absurd (h.idle hsending).2 hsome
  | true =>
      obtain ⟨m, hfits, hle, hone⟩ := (h.sending hsending).resolve_left fun hstuck => hsome hstuck.1
      rw [hone, Multiset.mem_singleton] at hn
      exact ⟨rfl, hn ▸ hfits, hn ▸ hle, hn ▸ hone⟩

/-- With one of them apart there are no others. -/
theorem of_cons {n : Nat} (h : Outgoing fits stuck x (n ::ₘ due) w) :
    x.isSending_ = true ∧ fits n ∧ n ≤ w.length ∧ due = 0 := by
  obtain ⟨hsending, hfits, hle, hone⟩ := h.of_mem (Multiset.mem_cons_self n due)
  exact ⟨hsending, hfits, hle, (Multiset.cons_inj_right n).mp hone⟩

/-- Nothing waits and nothing is sent. -/
theorem none (hqueued : x.Queued []) (hidle : x.isSending_ = false) : Outgoing fits stuck x 0 [] :=
  ⟨hqueued, fun _ => ⟨rfl, rfl⟩, fun h => Bool.noConfusion (hidle.symm.trans h)⟩

/-- Bytes join those that wait while the session is sending. -/
theorem queue (h : Outgoing fits stuck x due w) (hsending : x.isSending_ = true) {bs : List UInt8}
    (hroom : w.length + bs.length ≤ getSize) : Outgoing fits stuck (x.queue bs) due (w ++ bs) := by
  refine ⟨h.queued.queue bs hroom, fun hidle => Bool.noConfusion (hsending.symm.trans hidle),
    fun _ => (h.sending hsending).imp_right ?_⟩
  rintro ⟨n, hfits, hle, hone⟩
  rw [List.length_append]
  exact ⟨n, hfits, hle.trans (Nat.le_add_right _ _), hone⟩

/-- A `WSASend` of all that waits is the one not dealt with. -/
theorem posted (hqueued : x.Queued w) (hsending : x.isSending_ = true) (hfits : fits w.length) :
    Outgoing fits stuck x.prepareSend {x.prepareSend.writeOv_.wsaBuf_.len} w := by
  obtain ⟨hprepared, hbuf⟩ := hqueued.prepareSend
  refine ⟨hprepared, fun hidle => Bool.noConfusion (hsending.symm.trans hidle),
    fun _ => .inr ⟨w.length, hfits, le_rfl, ?_⟩⟩
  rw [hbuf]

/-- A `WSASend` that was not posted leaves the session stuck. -/
theorem refused (hqueued : x.Queued w) (hsending : x.isSending_ = true) (hstuck : stuck) :
    Outgoing fits stuck x.prepareSend 0 w :=
  ⟨hqueued.prepareSend.1, fun hidle => Bool.noConfusion (hsending.symm.trans hidle),
    fun _ => .inl ⟨rfl, hstuck⟩⟩

end Outgoing

end Session

end ServerStudy
