import ServerStudy.Session

/-!
# ServerStudy.Session.Read

The receiving side of a session, for any packet handler.

* `wp_parse` — the loop of `OnRead` hands over the frames `packets.cut` takes
  off the waiting bytes, and never runs out of turns;
* `wp_onRead` — the whole of `OnRead`.
-/

namespace ServerStudy

namespace Session

variable {σ : Type} {Q : Type → Type} {ok : Answers σ Q} {bad : Fault → Prop}

/-! ## headers -/

/-- A header is its first four bytes. -/
theorem ofBytes_take {u : List UInt8} (hlen : 4 ≤ u.length) :
    PacketHeader.ofBytes (u.take 4) = PacketHeader.ofBytes u := by
  have h := PacketHeader.ofBytes_append (u.drop 4) (s := u.take 4) (by rw [List.length_take]; omega)
  rw [← h, List.take_append_drop]

/-- The header at the read position is that of the waiting bytes. -/
theorem wp_readHeader (P : SessionPort σ Q) {post : PacketHeader → σ → Prop} {s : σ}
    {u : List UInt8} (h : (P.self.get s).readOv_.Holds u) (hlen : 4 ≤ u.length) :
    Prog.wp ok bad (readHeader P (P.self.get s).readOv_.readPos_) post s ↔
      post (.ofBytes u) s := by
  unfold readHeader
  rw [Prog.wp_lens_view (b := PacketHeader.ofBytes u)]
  rw [PacketHeader.sizeOf, h.load hlen, Except.map, ofBytes_take hlen]

/-- No 16-bit size reaches the size of the buffer. -/
theorem size_lt_getSize (h : PacketHeader) : h.size.toNat < OverlappedEx.getSize := h.size.toNat_lt

/-! ## the loop -/

/-- No frame is complete in `u`. -/
def Stuck (u : List UInt8) (malformed : Bool) : Prop := packets.cut u = ⟨[], u, malformed⟩

/-- `readPos_ += n` on the receiving side. -/
def skip (s : Session) (n : Nat) : Session := { s with readOv_ := s.readOv_.consume n }

/-- The parsing loop, for a packet handler that leaves `readOv_` alone: with an
invariant that every handled frame keeps, it stops where `packets.cut` does. -/
theorem wp_parse (P : SessionPort σ Q) {I : List UInt8 → σ → Prop} {R : σ → Prop}
    (hholds : ∀ u s, I u s → (P.self.get s).readOv_.Holds u)
    (hexec : ∀ u s, I u s → 4 ≤ packets.size u → packets.size u ≤ u.length →
      Prog.wp ok bad (P.execute (P.self.get s).readOv_.readPos_) (fun b s' =>
        if b then (P.self.get s').readOv_ = (P.self.get s).readOv_ ∧
          I (u.drop (packets.size u)) (P.self.set ((P.self.get s').skip (packets.size u)) s')
        else R s') s)
    (turns : Nat) (u : List UInt8) (s : σ) (hI : I u s) (hturns : u.length < turns) :
    Prog.wp ok bad (parse P turns) (fun b s' =>
      if b then ∃ u', I u' s' ∧ Stuck u' false else (∃ u', I u' s' ∧ Stuck u' true) ∨ R s') s := by
  induction turns generalizing u s with
  | zero => omega
  | succ turns ih =>
      have hu := hholds u s hI
      simp only [parse, Prog.bind_eq, Prog.wp_bind, Prog.wp_lens_read, hu.available, Prog.wp_ite,
        PacketHeader.sizeOf, Prog.pure_eq, Prog.wp_done, Prog.wp_lens_modify]
      by_cases hshort : u.length < 4
      · rw [if_pos hshort, if_pos trivial]
        exact ⟨u, hI, packets.cut_short hshort⟩
      rw [if_neg hshort, wp_readHeader P hu (by omega)]
      have hfit := size_lt_getSize (.ofBytes u)
      by_cases hbad : (PacketHeader.ofBytes u).size.toNat < 4
      · rw [if_pos (.inl hbad), if_neg Bool.false_ne_true]
        exact .inl ⟨u, hI, packets.cut_malformed (by simp only [packets_header]; omega) hbad⟩
      rw [if_neg (by omega)]
      by_cases hpart : u.length < (PacketHeader.ofBytes u).size.toNat
      · rw [if_pos hpart, if_pos trivial]
        exact ⟨u, hI, packets.cut_incomplete (by simp only [packets_header]; omega)
          (by simp only [packets_header, packets_size]; omega) hpart⟩
      rw [if_neg hpart]
      refine Prog.wp_mono (fun b s' hb => ?_) (hexec u s hI (Nat.not_lt.mp hbad) (Nat.not_lt.mp hpart))
      cases b with
      | false => exact .inr hb
      | true =>
          obtain ⟨hov, hI'⟩ := hb
          have hsame : (P.self.get s').readOv_.readPos_ = (P.self.get s).readOv_.readPos_ := by rw [hov]
          have hu' : (P.self.get s').readOv_.Holds u := hov ▸ hu
          simp only [Bool.not_true, Bool.false_eq_true, if_false]
          rw [← hsame, wp_readHeader P hu' (by omega)]
          exact ih _ _ hI' (by rw [List.length_drop, packets_size]; omega)

/-! ## the completion -/

/-- `OnRead` takes the new bytes in, runs the loop, brings the positions back
and posts the next read. -/
theorem wp_onRead (P : SessionPort σ Q) {n : Nat} {post : Bool → σ → Prop} {s s₁ : σ}
    (hs₁ : s₁ = P.self.set { P.self.get s with readOv_ := (P.self.get s).readOv_.produce n } s)
    (h : Prog.wp ok bad (parse P ((P.self.get s₁).readOv_.available + 1)) (fun b s₂ =>
      if b then
        Prog.wp ok bad (registerRead P) post
          (P.self.set { P.self.get s₂ with readOv_ := (P.self.get s₂).readOv_.rewind } s₂)
      else post false s₂) s₁) :
    Prog.wp ok bad (onRead P n) post s := by
  subst hs₁
  unfold onRead
  rw [Prog.bind_eq, Prog.wp_bind, Prog.wp_lens_modify, Prog.bind_eq, Prog.wp_bind,
    Prog.wp_lens_read, Prog.bind_eq, Prog.wp_bind]
  refine Prog.wp_mono (fun b s₂ hb => ?_) h
  cases b with
  | false => exact hb
  | true =>
      simp only [if_true, Bool.not_true, Bool.false_eq_true, if_false] at hb ⊢
      rw [Prog.bind_eq, Prog.wp_bind, Prog.wp_lens_modify, Prog.bind_eq, Prog.wp_bind]
      refine Prog.wp_mono (fun b s₃ hb => ?_) hb
      cases b <;> exact hb

end Session

end ServerStudy
