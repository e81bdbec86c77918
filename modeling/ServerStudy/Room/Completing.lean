import ServerStudy.Room.Receiving
import ServerStudy.SessionManager.Disconnect

/-!
# ServerStudy.Room.Completing

A turn of a thread, whichever completion it dequeues.

* `Triple.disconnect` — whatever the thread still had of the session, it has
  nothing of it afterwards;
* `Op.sound` — every turn keeps the invariant, and no turn faults.
-/

namespace ServerStudy

namespace Room

open SessionManager

variable {N : Nat} {m₀ : SessionManager N} {g : Ghost N} {s : Room N} {u v w : Fin N}
  {ov : OverlappedEx} {heard : List UInt8} {p : Progress N} {F r : Multiset (Token N)}
  {execute : Nat → Prog (Room N × Unit) (Kernel N) Fault Bool}

/-! ## disconnecting -/

/-- Tokens that a thread may give up, once the session is not connected any more. -/
def Disposable (m₀ : SessionManager N) (w : Fin N) (r : Multiset (Token N)) : Prop :=
  ∀ g s F, Kept m₀ g s (r + F) → s.manager.state w ≠ SessionState.kConnected.toNat → Kept m₀ g s F

theorem IsReader.disposable (h : IsReader u r) : Disposable m₀ u r := fun g s F hk hclosed => by
  obtain ⟨ov, heard, p, rfl⟩ := h
  rw [Multiset.singleton_add] at hk
  exact hk.stop hclosed

theorem disposable_writer : Disposable m₀ v {.writer v 0} := fun g s F hk hclosed => by
  rw [Multiset.singleton_add] at hk
  exact hk.stop_writer hclosed

/-- A session is disconnected. -/
theorem Kept.disconnect {b : Blocks N SessionState.kCnt} {set : SparseSet N SessionState.kCnt}
    (hk : Kept m₀ g s F) (hb : SparseSet.Repr s.manager.sessionPool_.set b)
    (hset : SparseSet.Leads set
      (Function.update b.block w ⟨SessionState.kDisconnecting.toNat, by decide⟩)
      s.manager.sessionPool_.set.gen) :
    Kept m₀ g { s with manager := s.manager.withSet set } F := by
  obtain ⟨hself, hother⟩ := state_moved hb hset
  obtain ⟨⟨b', hb', -⟩, hgen⟩ := hset
  refine hk.setManager ⟨⟨b', hb'⟩, ?_, hk.same.ptrs, hk.same.handle, hk.same.managed, fun v => ?_⟩ rfl
    fun v hv => ?_
  · rw [← hk.same.handleAt]
    funext v
    exact handleAt_eq (congrFun hgen v)
  · by_cases hv : v = w
    · rw [hv]
      exact .inr hself
    · rw [hother v hv]
      exact hk.same.state v
  · by_cases hvw : v = w
    · rw [hvw, hself] at hv
      exact absurd hv (by decide)
    · rwa [hother v hvw] at hv

/-- What the kernel is asked, and tells nothing about. -/
theorem Triple.query {α : Type} (q : Kernel N α) :
    Triple m₀ 0 (Prog.query q) (fun _ r => r = 0) :=
  ⟨trivial, fun _ _ _ hk _ _ => ⟨trivial, 0, hk, trivial, rfl⟩⟩

section Disconnect

variable (hN : N < 2 ^ 32) (hm : Serving m₀) (hw : m₀.state w ≠ 0)
include hN hm hw

/-- The section under `connectMtx_`. -/
theorem Triple.disconnectLocked (hr : Disposable m₀ w r) :
    Triple m₀ r (Session.disconnectLocked (sessionWith execute w)) (fun _ r' => r' = 0) := by
  refine Triple.atomically fun g s F _ hk => ?_
  obtain ⟨hhandle, hmanaged⟩ := hk.session hm hw
  have hmanaged' : (((port N).manager.get (s, ())).session w).sessionManager_ = true := hmanaged
  obtain ⟨b, hb⟩ := hk.same.repr
  have hb' : SparseSet.Repr ((port N).manager.get (s, ())).sessionPool_.set b := hb
  have hself : ((sessionWith execute w).self.get (s, ())).handle_ =
      ((port N).manager.get (s, ())).handleAt w := hhandle.trans (congrFun hk.same.handleAt w).symm
  have hdrop {s' : Room N} (hk' : Kept m₀ g s' (r + F))
      (hclosed : s'.manager.state w ≠ SessionState.kConnected.toNat) :
      ∃ r', (∃ g', Kept m₀ g' s' (r' + F)) ∧ r' = 0 :=
    ⟨0, ⟨g, by rw [zero_add]; exact hr g s' F hk' hclosed⟩, rfl⟩
  rw [Prog.bind_eq, Prog.wp_bind, Prog.wp_lens_read, hself]
  refine Prog.wp_bind.mpr
    ((@wp_session_getState _ _ _ _ _ _ _ _ execute hN hmanaged' _).mpr ?_)
  split_ifs with hopen hclosing
  · refine Prog.wp_bind.mpr (Prog.wp_bind.mpr ((wp_managerOf hmanaged').mpr ?_))
    refine wp_moveToState hN hb' w ⟨SessionState.kDisconnecting.toNat, by decide⟩ fun set hset => ?_
    have hclosed : (s.manager.withSet set).state w ≠ SessionState.kConnected.toNat := by
      rw [(state_moved hb hset).1]
      decide
    exact hdrop (hk.disconnect hb hset) hclosed
  · exact hdrop hk fun h => hopen (.inr (congrArg some h))
  · exact hdrop hk fun h => hopen (.inr (congrArg some h))

/-- `Disconnect`. -/
theorem Triple.disconnect (hr : Disposable m₀ w r) :
    Triple m₀ r (Session.disconnect (sessionWith execute w)) (fun _ r' => r' = 0) := by
  unfold Session.disconnect
  refine (Triple.disconnectLocked hN hm hw hr).bind fun b r' h => ?_
  subst h
  cases b with
  | some result => exact Triple.done rfl
  | none =>
      have htyped : Triple m₀ 0 ((sessionWith execute w).self.modify fun x =>
          { x with disconnectOv_.ioType_ := .kDisconnect }) (fun b r => b = () ∧ r = 0) :=
        Triple.action fun g s F _ hk => by
          have hset := hk.setOther (u := w) (x := { s.manager.session w with
            disconnectOv_.ioType_ := .kDisconnect }) ⟨rfl, rfl, rfl, rfl⟩ rfl
          exact ⟨(), _, 0, rfl, ⟨g, hset⟩, rfl, rfl⟩
      have hhandle : Triple m₀ 0 ((sessionWith execute w).self.read fun x => x.handle_)
          (fun _ r => r = 0) :=
        Triple.action fun g s F _ hk => ⟨_, s, 0, rfl, ⟨g, hk⟩, rfl⟩
      have hassign (h : UInt64) : Triple m₀ 0 ((sessionWith execute w).assignSessionPtr .disconnect h)
          (fun b r => b = () ∧ r = 0) := Triple.done ⟨rfl, rfl⟩
      have hcall : Triple m₀ 0 (sessionWith execute w).disconnectEx (fun _ r => r = 0) :=
        (Triple.query (.disconnectEx w)).bind fun _ _ h => Triple.done h
      refine htyped.then (hhandle.bind fun h r hr => ?_)
      subst hr
      refine (hassign h).then (hcall.bind fun result r hr => ?_)
      subst hr
      exact Triple.ite (fun _ => Triple.ite (fun _ => Triple.done rfl) fun _ => Triple.done rfl)
        fun _ => Triple.done rfl

end Disconnect

/-! ## a turn -/

/-- `ioType_` of the receive that is being dealt with. -/
theorem Triple.ioType_read (h : ov.ioType_ = .kRecv) :
    Triple m₀ {.reader u ov heard p} (ioType u .read)
      (fun b r => b = .kRecv ∧ r = {.reader u ov heard p}) :=
  Triple.read fun g s F _ hk => by
    rw [Multiset.singleton_add] at hk
    rw [← h, ← hk.owned.1]
    rfl

/-- `ioType_` of the send. -/
theorem Triple.ioType_write {n : Nat} :
    Triple m₀ {.writer v n} (ioType v .write) (fun b r => b = .kSend ∧ r = {.writer v n}) :=
  Triple.read fun g s F _ hk => by
    rw [Multiset.singleton_add] at hk
    refine (hk.writes v).ioType ?_
    rw [Multiset.countP_cons_of_pos (p := (·.writes v)) F (by simp)]
    omega

section Turn

variable (hN : N < 2 ^ 32) (hm : Serving m₀)
include hN hm

/-- The session is disconnected, and that is all. -/
theorem Triple.disconnectLast (hw : m₀.state w ≠ 0) (hr : Disposable m₀ w r) :
    Triple m₀ r (Session.disconnect (Room.session w) >>= fun _ => pure ()) (fun _ r' => r' = 0) :=
  (Triple.disconnect hN hm hw hr).bind fun _ _ h => Triple.done h

/-- A receive has completed. -/
theorem Op.sound_received : Triple m₀ 0 (Op.received u).prog (fun _ r => r = 0) := by
  refine Triple.hear.bind fun n r h => ?_
  obtain ⟨hu, ov, heard, handled, rfl, hio, hread⟩ := h
  have hu' : m₀.state u ≠ 0 := by rw [hu]; decide
  cases n with
  | none => exact Triple.disconnectLast hN hm hu' (IsReader.disposable ⟨_, _, _, rfl⟩)
  | some k =>
      obtain ⟨rest, hreading⟩ := hread k rfl
      refine (Triple.ioType_read hio).then (Triple.ite (fun _ => ?_) fun _ => ?_)
      · exact Triple.disconnectLast hN hm hu' (IsReader.disposable ⟨_, _, _, rfl⟩)
      · refine (Triple.onRead hN hm hu hreading).bind fun b r hb => ?_
        rcases hb with ⟨rfl, rfl⟩ | ⟨rfl, hr⟩
        · exact Triple.done rfl
        · exact Triple.disconnectLast hN hm hu' hr.disposable

/-- A send has. -/
theorem Op.sound_sent : Triple m₀ 0 (Op.sent v).prog (fun _ r => r = 0) := by
  refine Triple.tell.bind fun n r h => ?_
  obtain ⟨hv, rfl⟩ := h
  have hv' : m₀.state v ≠ 0 := by rw [hv]; decide
  cases n with
  | none => exact Triple.disconnectLast hN hm hv' disposable_writer
  | some k =>
      refine Triple.ioType_write.then (Triple.ite (fun hk => ?_) fun _ => ?_)
      · subst hk
        exact Triple.disconnectLast hN hm hv' disposable_writer
      · refine (Triple.onWrite hv).bind fun b r hr => ?_
        rcases hr with ⟨rfl, rfl⟩ | ⟨rfl, rfl⟩
        · exact Triple.done rfl
        · exact Triple.disconnectLast hN hm hv' disposable_writer

/-- **Every turn** keeps the invariant. -/
theorem Op.sound : (discipline m₀).Sound answers := by
  rintro op ⟨⟩ r - hr
  change r = 0 at hr
  subst hr
  cases op with
  | received u => exact Op.sound_received hN hm
  | sent v => exact Op.sound_sent hN hm

end Turn

end Room

end ServerStudy
