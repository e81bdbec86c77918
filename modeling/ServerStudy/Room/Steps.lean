import ServerStudy.Room.Invariant

/-!
# ServerStudy.Room.Steps

What one action may do to the sessions, and what it leaves of the tokens.

* `Kept.setRead` — a reader changes the receiving buffer it owns, and its
  progress;
* `Kept.setOther` — anybody may change what no token is about;
* `Kept.setManager` — a session is disconnected;
* `Kept.stop` — a reader stops for good.
-/

namespace ServerStudy

namespace Room

open SessionManager

variable {N : Nat} {m₀ : SessionManager N} {g : Ghost N} {s : Room N} {u v w : Fin N}
  {ov : OverlappedEx} {heard : List UInt8} {p p' : Progress N} {t : Token N}
  {F R : Multiset (Token N)} {n : Nat}

/-! ## tokens -/

@[simp] theorem reads_reader : (Token.reader v ov heard p).reads u = decide (v = u) := rfl

@[simp] theorem reads_writer : (Token.writer v n).reads u = false := rfl

@[simp] theorem writes_reader : (Token.reader v ov heard p).writes u = false := rfl

@[simp] theorem writes_writer : (Token.writer v n).writes u = decide (v = u) := rfl

theorem not_mem_of_reads (h : F.countP (·.reads u) = 0) : .reader u ov heard p ∉ F := fun hmem =>
  Multiset.countP_eq_zero.mp h _ hmem (by simp)

theorem not_mem_of_writes (h : F.countP (·.writes v) = 0) : .writer v n ∉ F := fun hmem =>
  Multiset.countP_eq_zero.mp h _ hmem (by simp)

/-- The reader of a session is alone with it. -/
theorem Reads.alone (h : Reads m₀ p s (t ::ₘ R) u) (ht : t.reads u = true) :
    R.countP (·.reads u) = 0 ∧ s.receiving u = none := by
  have hone := h.one
  rw [Multiset.countP_cons_of_pos (p := (·.reads u)) R ht] at hone
  refine ⟨by omega, ?_⟩
  cases hr : s.receiving u with
  | none => rfl
  | some wsaBuf =>
      rw [hr, Option.isSome_some, Bool.toNat_true] at hone
      omega

/-- A token is traded for one that is about the same. -/
theorem countP_swap {f : Token N → Bool} {t' : Token N} (h : f t = f t') :
    (t ::ₘ R).countP (fun t => f t) = (t' ::ₘ R).countP (fun t => f t) := by
  rw [Multiset.countP_cons, Multiset.countP_cons, h]

/-- One that is not about the session joins or leaves. -/
theorem countP_other {f : Token N → Bool} (h : f t = false) :
    (t ::ₘ R).countP (fun t => f t) = R.countP (fun t => f t) :=
  Multiset.countP_cons_of_neg (p := fun t => f t) R (by simp [h])

/-- What a reader knows. -/
theorem Kept.owned (hk : Kept m₀ g s (.reader u ov heard p ::ₘ R)) :
    (s.manager.session u).readOv_ = ov ∧ s.heard u = heard ∧ g.progress u = p :=
  (hk.reads u).reader ov heard p (Multiset.mem_cons_self _ _)

/-! ## parts that do not matter -/

/-- Another token joins or leaves, which is not about this session. -/
theorem Reads.cons_iff (ht : t.reads u = false) :
    Reads m₀ p s (t ::ₘ R) u ↔ Reads m₀ p s R u := by
  have hcount : (t ::ₘ R).countP (·.reads u) = R.countP (·.reads u) :=
    Multiset.countP_cons_of_neg (p := (·.reads u)) R (by simp [ht])
  have hmem : ∀ ov heard p', Token.reader u ov heard p' ∈ t ::ₘ R ↔ .reader u ov heard p' ∈ R :=
    fun ov heard p' => by
      refine Multiset.mem_cons.trans (or_iff_right ?_)
      rintro rfl
      simp at ht
  constructor
  · exact fun h => ⟨hcount ▸ h.one, h.begun, h.connected, h.awaits,
      fun ov heard p' hr => h.reader ov heard p' ((hmem ov heard p').mpr hr)⟩
  · exact fun h => ⟨hcount.symm ▸ h.one, h.begun, h.connected, h.awaits,
      fun ov heard p' hr => h.reader ov heard p' ((hmem ov heard p').mp hr)⟩

/-- A reader of any session joins or leaves. -/
theorem Writes.cons_iff {queue : List (List UInt8)} {waiting : List UInt8}
    (ht : t.writes v = false) :
    Writes m₀ queue waiting s (t ::ₘ R) v ↔ Writes m₀ queue waiting s R v := by
  have hcount : (t ::ₘ R).countP (·.writes v) = R.countP (·.writes v) :=
    Multiset.countP_cons_of_neg (p := (·.writes v)) R (by simp [ht])
  have hmem : ∀ n, Token.writer v n ∈ t ::ₘ R ↔ .writer v n ∈ R := fun n => by
    refine Multiset.mem_cons.trans (or_iff_right ?_)
    rintro rfl
    simp at ht
  constructor
  · exact fun h => ⟨hcount ▸ h.one, h.queued, h.idle, hcount ▸ h.ioType, h.sending,
      fun n hn => h.writer n ((hmem n).mpr hn), fun h0 => h.sent (hcount.trans h0), h.packet, h.connected⟩
  · exact fun h => ⟨hcount.symm ▸ h.one, h.queued, h.idle, hcount.symm ▸ h.ioType, h.sending,
      fun n hn => h.writer n ((hmem n).mp hn), fun h0 => h.sent (hcount.symm.trans h0), h.packet,
      h.connected⟩

/-- The receiving side sees of the room what its client has sent, and the buffer. -/
theorem Reads.congr {s' : Room N} (h : Reads m₀ p s F u) (hreceiving : s'.receiving u = s.receiving u)
    (hheard : s'.heard u = s.heard u)
    (hov : (s'.manager.session u).readOv_ = (s.manager.session u).readOv_) :
    Reads m₀ p s' F u where
  one := hreceiving.symm ▸ h.one
  begun := hheard.symm ▸ h.begun
  connected := hreceiving.symm ▸ h.connected
  awaits wsaBuf hr := by
    rw [hov, hheard]
    exact h.awaits wsaBuf (hreceiving ▸ hr)
  reader := by
    rw [hov, hheard]
    exact h.reader

/-- The sending side sees its own buffer, and what its client was sent. -/
theorem Writes.congr {s' : Room N} {queue : List (List UInt8)} {waiting : List UInt8}
    (h : Writes m₀ queue waiting s F v) (hsending : s'.sending v = s.sending v)
    (hsent : s'.sent v = s.sent v)
    (hov : (s'.manager.session v).writeOv_ = (s.manager.session v).writeOv_)
    (hflag : (s'.manager.session v).isSending_ = (s.manager.session v).isSending_) :
    Writes m₀ queue waiting s' F v where
  one := by
    rw [hsending, hflag]
    exact h.one
  queued := by
    have hq := h.queued
    exact ⟨hov.symm ▸ hq.holds, hov.symm ▸ hq.low, hq.fits⟩
  idle := hflag.symm ▸ h.idle
  ioType := by
    rw [hsending, hov]
    exact h.ioType
  sending wsaBuf hs := by
    rw [hov]
    exact h.sending wsaBuf (hsending ▸ hs)
  writer := hsent.symm ▸ h.writer
  sent := hsent.symm ▸ h.sent
  packet := h.packet
  connected := hsending.symm ▸ h.connected

theorem Fed.congr {s' : Room N} {queue given : List (List UInt8)} (h : Fed m₀ s queue u v given)
    (hstate : s'.manager.state v = SessionState.kConnected.toNat →
      s.manager.state v = SessionState.kConnected.toNat)
    (hrefused : s'.refused v = false → s.refused v = false) : Fed m₀ s' queue u v given :=
  ⟨h.sublist, fun hs hr => h.all (hstate hs) (hrefused hr)⟩

/-- The state of the session, whether a receive is outstanding, and the readers. -/
theorem Listens.congr {s' : Room N} (h : Listens s F u)
    (hstate : s'.manager.state u = SessionState.kConnected.toNat →
      s.manager.state u = SessionState.kConnected.toNat)
    (hreceiving : s'.receiving u = s.receiving u) (hreads : F.countP (·.reads u) = R.countP (·.reads u)) :
    Listens s' R u := fun hs => by
  rw [hreceiving, ← hreads]
  exact h (hstate hs)

/-- And the sending side, the writers and the flag. -/
theorem Busy.congr {s' : Room N} (h : Busy s F v)
    (hstate : s'.manager.state v = SessionState.kConnected.toNat →
      s.manager.state v = SessionState.kConnected.toNat)
    (hrefused : s'.refused v = false → s.refused v = false)
    (hflag : (s'.manager.session v).isSending_ = (s.manager.session v).isSending_)
    (hsending : s'.sending v = s.sending v) (hwrites : F.countP (·.writes v) = R.countP (·.writes v)) :
    Busy s' R v := fun hs hr hf => by
  rw [hsending, ← hwrites]
  exact h (hstate hs) (hrefused hr) (hflag ▸ hf)

theorem session_setSession_ne (m : SessionManager N) {x : Session} (h : w ≠ u) :
    (m.setSession u x).session w = m.session w := Function.update_of_ne h _ _

/-- A session is written back. -/
theorem Same.setSession {m : SessionManager N} (h : Same m₀ m) {x : Session}
    (hhandle : x.handle_ = (m.session u).handle_)
    (hmanaged : x.sessionManager_ = (m.session u).sessionManager_) :
    Same m₀ (m.setSession u x) where
  repr := h.repr
  handleAt := h.handleAt
  ptrs := h.ptrs
  handle w := by
    rw [← h.handle w]
    by_cases hw : w = u
    · rw [hw, session_setSession, hhandle]
    · rw [session_setSession_ne _ hw]
  managed w := by
    rw [← h.managed w]
    by_cases hw : w = u
    · rw [hw, session_setSession, hmanaged]
    · rw [session_setSession_ne _ hw]
  state := h.state

/-- The sending sides do not see what else there is of a session. -/
theorem Writes.setSession {queue : List (List UInt8)} {waiting : List UInt8} {x : Session}
    (h : Writes m₀ queue waiting s F v) (hwrite : x.writeOv_ = (s.manager.session u).writeOv_)
    (hflag : x.isSending_ = (s.manager.session u).isSending_) :
    Writes m₀ queue waiting (s.setSession u x) F v := by
  by_cases hv : v = u
  · subst hv
    exact h.congr rfl rfl (by rw [manager_setSession, session_setSession, hwrite])
      (by rw [manager_setSession, session_setSession, hflag])
  · exact h.congr rfl rfl (by rw [manager_setSession, session_setSession_ne _ hv])
      (by rw [manager_setSession, session_setSession_ne _ hv])

theorem isSending_setSession {x : Session}
    (hflag : x.isSending_ = (s.manager.session u).isSending_) (v : Fin N) :
    ((s.setSession u x).manager.session v).isSending_ = (s.manager.session v).isSending_ := by
  by_cases hv : v = u
  · rw [hv, manager_setSession, session_setSession, hflag]
  · rw [manager_setSession, session_setSession_ne _ hv]

/-! ## one action -/

/-- What is not the receiving side is as it was. -/
structure Beside (x y : Session) : Prop where
  handle : y.handle_ = x.handle_
  managed : y.sessionManager_ = x.sessionManager_
  writeOv : y.writeOv_ = x.writeOv_
  isSending : y.isSending_ = x.isSending_

/-- The reader of a session changes its receiving buffer, and its own progress. -/
theorem Kept.setRead (hk : Kept m₀ g s (.reader u ov heard p ::ₘ R)) {x : Session}
    (hx : Beside (s.manager.session u) x) (hbegun : p'.begun <+: (packets.cut heard).frames)
    (hfed : ∀ v, u ≠ v → Fed m₀ s (g.queue v) u v (p.given v) →
      Fed m₀ s (g.queue v) u v (p'.given v)) :
    Kept m₀ { g with progress := Function.update g.progress u p' }
      (s.setSession u x) (.reader u x.readOv_ heard p' ::ₘ R) := by
  obtain ⟨-, hheard, hp⟩ := hk.owned
  obtain ⟨hcount, hreceiving⟩ := (hk.reads u).alone (by simp)
  refine ⟨hk.same.setSession hx.handle hx.managed, fun w => ?_,
    fun w => (hk.listens w).congr id rfl (countP_swap rfl),
    fun v => (hk.busy v).congr id id (isSending_setSession hx.isSending v) rfl (countP_swap rfl),
    fun w v hwv => ?_, fun v => ?_⟩
  · by_cases hw : w = u
    · subst hw
      have hone : (Token.reader w x.readOv_ heard p' ::ₘ R).countP (·.reads w) = 1 := by
        rw [Multiset.countP_cons_of_pos (p := (·.reads w)) R (by simp), hcount]
      refine ⟨?_, ?_, fun hr => ?_, fun wsaBuf hr => ?_, fun ov' heard' p'' hmem => ?_⟩
      · rw [hone, receiving_setSession, hreceiving]
        decide
      · simpa [hheard] using hbegun
      · rw [receiving_setSession, hreceiving] at hr
        exact absurd hr Bool.false_ne_true
      · rw [receiving_setSession, hreceiving] at hr
        cases hr
      · rcases Multiset.mem_cons.mp hmem with he | hmem
        · cases he
          exact ⟨by simp, hheard, by simp⟩
        · exact absurd hmem (not_mem_of_reads hcount)
    · have hr := (Reads.cons_iff (by simpa using Ne.symm hw)).mp (hk.reads w)
      rw [Reads.cons_iff (by simpa using Ne.symm hw)]
      simp only [Function.update_of_ne hw]
      exact hr.congr rfl rfl (by rw [manager_setSession, session_setSession_ne _ hw])
  · by_cases hw : w = u
    · subst hw
      have hf := hk.fed w v hwv
      rw [hp] at hf
      have hf' : Fed m₀ (s.setSession w x) (g.queue v) w v (p'.given v) :=
        (hfed v hwv hf).congr id id
      simpa using hf'
    · simp only [Function.update_of_ne hw]
      exact (hk.fed w v hwv).congr id id
  · have hw := (Writes.cons_iff (by simp)).mp (hk.writes v)
    rw [Writes.cons_iff (by simp)]
    exact hw.setSession hx.writeOv hx.isSending

/-- Anybody may change what no token is about. -/
theorem Kept.setOther (hk : Kept m₀ g s F) {x : Session} (hx : Beside (s.manager.session u) x)
    (hov : x.readOv_ = (s.manager.session u).readOv_) :
    Kept m₀ g (s.setSession u x) F where
  same := hk.same.setSession hx.handle hx.managed
  reads w := by
    refine (hk.reads w).congr rfl rfl ?_
    by_cases hw : w = u
    · simp [hw, hov]
    · rw [manager_setSession, session_setSession_ne _ hw]
  listens w := (hk.listens w).congr id rfl rfl
  busy v := (hk.busy v).congr id id (isSending_setSession hx.isSending v) rfl rfl
  fed w v hwv := (hk.fed w v hwv).congr id id
  writes v := (hk.writes v).setSession hx.writeOv hx.isSending

/-- Some sessions are disconnected. -/
theorem Kept.setManager (hk : Kept m₀ g s F) {m : SessionManager N} (hm : Same m₀ m)
    (hsession : m.session = s.manager.session)
    (hstate : ∀ v, m.state v = SessionState.kConnected.toNat →
      s.manager.state v = SessionState.kConnected.toNat) :
    Kept m₀ g { s with manager := m } F where
  same := hm
  reads w := (hk.reads w).congr rfl rfl (by rw [hsession])
  listens w := (hk.listens w).congr (hstate w) rfl rfl
  busy v := (hk.busy v).congr (hstate v) id (by rw [hsession]) rfl rfl
  fed w v hwv := (hk.fed w v hwv).congr (hstate v) id
  writes v := (hk.writes v).congr rfl rfl (by rw [hsession]) (by rw [hsession])

/-- A reader stops for good, where the session is being disconnected. -/
theorem Kept.stop (hk : Kept m₀ g s (.reader u ov heard p ::ₘ R))
    (hclosed : s.manager.state u ≠ SessionState.kConnected.toNat) : Kept m₀ g s R where
  same := hk.same
  reads w := by
    have hr := hk.reads w
    have hle : R.countP (·.reads w) ≤ (Token.reader u ov heard p ::ₘ R).countP (·.reads w) :=
      Multiset.countP_le_of_le _ (Multiset.le_cons_self _ _)
    have hone := hr.one
    exact ⟨by omega, hr.begun, hr.connected, hr.awaits, fun ov' heard' p' hmem =>
      hr.reader ov' heard' p' (Multiset.mem_cons_of_mem hmem)⟩
  listens w := by
    by_cases hw : w = u
    · exact fun hs => absurd hs (hw ▸ hclosed)
    · exact (hk.listens w).congr id rfl (countP_other (by simpa using Ne.symm hw))
  busy v := (hk.busy v).congr id id rfl rfl (countP_other rfl)
  fed := hk.fed
  writes v := (Writes.cons_iff (by simp)).mp (hk.writes v)

end Room

end ServerStudy
