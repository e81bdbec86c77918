import Mathlib.Data.Multiset.Count
import ServerStudy.SparsePool
import ServerStudy.SparseSet.Repr

/-!
# ServerStudy.SparsePool.Tokens

Who owns what of a pool.  A token `ref h` stands for one pointer that carries
the handle `h` and is counted; a release turns the last of them into `last h`,
then `dead h`, then `stale h`, and an acquisition starts with `fresh h`.

`PoolInv s R` relates a pool to all the tokens `R` there are, and each lemma
after it is one atomic action of the pool: what it does to the tokens.
-/

namespace ServerStudy

/-! ## tokens -/

/-- What a thread can own of a pool. -/
inductive Tok where
  /-- a counted pointer to `h` -/
  | ref (h : UInt64)
  /-- the count of `h` has just reached zero -/
  | last (h : UInt64)
  /-- the deleter has run for `h` -/
  | dead (h : UInt64)
  /-- `h` is popped and not yet counted -/
  | fresh (h : UInt64)
  /-- `h` will never be valid again -/
  | stale (h : UInt64)
  deriving DecidableEq

/-- The handle a token is about. -/
def Tok.handle : Tok → UInt64
  | .ref h | .last h | .dead h | .fresh h | .stale h => h

/-- A pool, the handles the deleter has run for, and what else there is. -/
structure PoolWorld (U : Type) (N K : Nat) where
  pool : Pool N K
  deleted : List UInt64
  rest : U

namespace PoolWorld

variable {U : Type} {N K : Nat}

/-- The current handle of a slot. -/
def handleAt (s : PoolWorld U N K) (w : Fin N) : UInt64 := s.pool.set.handleAt w

/-- The generation of a slot. -/
def gen (s : PoolWorld U N K) (w : Fin N) : UInt32 := s.pool.set.gen w

/-- The state of a slot. -/
def state (s : PoolWorld U N K) (w : Fin N) : Nat := (s.pool.set.sparse_ w).state_

/-- How often the deleter has run for a slot. -/
def releases (s : PoolWorld U N K) (w : Fin N) : Nat :=
  s.deleted.countP fun h => (whoOf h).toNat = w

/-- The slot of `h` has moved on to a later generation. -/
def Past (s : PoolWorld U N K) (h : UInt64) : Prop :=
  ∃ w : Fin N, (whoOf h).toNat = w ∧ (generationOf h).toNat < (s.gen w).toNat

end PoolWorld

/-- The counted pointers to `h`. -/
def uses (R : Multiset Tok) (h : UInt64) : Nat := R.count (.ref h)

/-- The acquisitions and releases of `h` under way. -/
def busy (R : Multiset Tok) (h : UInt64) : Nat :=
  R.count (.last h) + R.count (.dead h) + R.count (.fresh h)

section
variable (F : Multiset Tok) (h : UInt64)

@[simp] theorem uses_ref : uses (.ref h ::ₘ F) h = uses F h + 1 := by simp [uses]
@[simp] theorem uses_last : uses (.last h ::ₘ F) h = uses F h := by simp [uses]
@[simp] theorem uses_dead : uses (.dead h ::ₘ F) h = uses F h := by simp [uses]
@[simp] theorem uses_fresh : uses (.fresh h ::ₘ F) h = uses F h := by simp [uses]
@[simp] theorem uses_stale : uses (.stale h ::ₘ F) h = uses F h := by simp [uses]
@[simp] theorem busy_ref : busy (.ref h ::ₘ F) h = busy F h := by simp [busy]
@[simp] theorem busy_stale : busy (.stale h ::ₘ F) h = busy F h := by simp [busy]

@[simp] theorem busy_last : busy (.last h ::ₘ F) h = busy F h + 1 := by
  simp [busy]
  omega

@[simp] theorem busy_dead : busy (.dead h ::ₘ F) h = busy F h + 1 := by
  simp [busy]
  omega

@[simp] theorem busy_fresh : busy (.fresh h ::ₘ F) h = busy F h + 1 := by
  simp [busy]
  omega

end

/-! ## the invariant -/

/-- The tokens account for the pool: every count is the number of counted
pointers; an acquired slot has one, or is being acquired or released by one
thread, and an idle slot has neither; the deleter has run once for every handle
of the past. -/
structure PoolInv {U : Type} {N K : Nat} (s : PoolWorld U N K) (R : Multiset Tok) : Prop where
  repr : ∃ b, SparseSet.Repr s.pool.set b
  counted : ∀ w, s.pool.refCount_ w = uses R (s.handleAt w)
  idle : ∀ w, s.state w = 0 → uses R (s.handleAt w) = 0 ∧ busy R (s.handleAt w) = 0
  taken : ∀ w, s.state w ≠ 0 →
    0 < uses R (s.handleAt w) ∧ busy R (s.handleAt w) = 0 ∨
    uses R (s.handleAt w) = 0 ∧ busy R (s.handleAt w) = 1
  current : ∀ h, 0 < uses R h + busy R h → ∃ w, h = s.handleAt w
  past : ∀ h, .stale h ∈ R → s.Past h
  deletedPast : ∀ h, s.Past h → s.deleted.count h = 1
  deletedLive : ∀ h, ¬ s.Past h → s.deleted.count h = R.count (.dead h)
  releases : ∀ w, s.releases w = (s.gen w).toNat + R.count (.dead (s.handleAt w))

namespace PoolInv

variable {U : Type} {N K : Nat} {s : PoolWorld U N K} {R : Multiset Tok}

/-! ## handles -/

theorem handleAt_ne (hN : N < 2 ^ 32) (s : PoolWorld U N K) {v w : Fin N} (h : v ≠ w) :
    s.handleAt v ≠ s.handleAt w := fun he => h (SparseSet.handleAt_inj hN s.pool.set he)

/-- A current handle is not of the past. -/
theorem not_past (hN : N < 2 ^ 32) (s : PoolWorld U N K) (w : Fin N) : ¬ s.Past (s.handleAt w) := by
  rintro ⟨v, hv, hlt⟩
  have hvw : v = w := Fin.ext (by rw [← hv]; exact SparseSet.toNat_whoOf_handleAt hN s.pool.set w)
  subst hvw
  rw [PoolWorld.handleAt, SparseSet.handleAt, generationOf_handleOf] at hlt
  exact lt_irrefl _ hlt

/-- A handle of the past is not valid. -/
theorem isValid_of_past (hN : N < 2 ^ 32) {h : UInt64} (hp : s.Past h) :
    s.pool.set.isValid h = false := by
  rw [← Bool.not_eq_true, SparseSet.isValid_iff hN]
  rintro ⟨w, rfl⟩
  exact not_past hN s w hp

/-! ## one slot changes -/

/-- Tokens are about one slot at a time, so where the generations stay and one
slot changes, only that slot's accounts have to be redone. -/
theorem update (hN : N < 2 ^ 32) {s' : PoolWorld U N K} {R' : Multiset Tok} (hi : PoolInv s R)
    (w : Fin N) (hrepr : ∃ b, SparseSet.Repr s'.pool.set b) (hgen : s'.pool.set.gen = s.pool.set.gen)
    (hstates : ∀ v, v ≠ w → s'.state v = s.state v)
    (hcounts : ∀ v, v ≠ w → s'.pool.refCount_ v = s.pool.refCount_ v)
    (htok : ∀ t : Tok, t.handle ≠ s.handleAt w → R'.count t = R.count t)
    (hstale : R'.count (.stale (s.handleAt w)) = R.count (.stale (s.handleAt w)))
    (hdel : ∀ h, h ≠ s.handleAt w → s'.deleted.count h = s.deleted.count h)
    (hrel : ∀ v, v ≠ w → s'.releases v = s.releases v)
    (hcounted : s'.pool.refCount_ w = uses R' (s.handleAt w))
    (hstate : s'.state w ≠ 0)
    (htaken : 0 < uses R' (s.handleAt w) ∧ busy R' (s.handleAt w) = 0 ∨
      uses R' (s.handleAt w) = 0 ∧ busy R' (s.handleAt w) = 1)
    (hdelw : s'.deleted.count (s.handleAt w) = R'.count (.dead (s.handleAt w)))
    (hrelw : s'.releases w = (s.gen w).toNat + R'.count (.dead (s.handleAt w))) :
    PoolInv s' R' := by
  have hhandle : ∀ v, s'.handleAt v = s.handleAt v := fun v => by
    simp only [PoolWorld.handleAt, SparseSet.handleAt, hgen]
  have hgens : ∀ v, s'.gen v = s.gen v := fun v => congrFun hgen v
  have hpast : ∀ h, s'.Past h ↔ s.Past h := fun h => by simp only [PoolWorld.Past, hgens]
  have huses : ∀ h, h ≠ s.handleAt w → uses R' h = uses R h := fun h hh => htok (.ref h) hh
  have hbusy : ∀ h, h ≠ s.handleAt w → busy R' h = busy R h := fun h hh => by
    rw [busy, busy, htok (.last h) hh, htok (.dead h) hh, htok (.fresh h) hh]
  have hne : ∀ v, v ≠ w → s.handleAt v ≠ s.handleAt w := fun v hv => handleAt_ne hN s hv
  refine ⟨hrepr, fun v => ?_, fun v hv => ?_, fun v hv => ?_, fun h hpos => ?_, fun h hh => ?_,
    fun h hh => ?_, fun h hh => ?_, fun v => ?_⟩
  · rw [hhandle]
    by_cases hvw : v = w
    · rw [hvw, hcounted]
    · rw [hcounts v hvw, huses _ (hne v hvw), hi.counted]
  · rw [hhandle]
    by_cases hvw : v = w
    · exact absurd (hvw ▸ hv) hstate
    · rw [huses _ (hne v hvw), hbusy _ (hne v hvw)]
      exact hi.idle v (by rw [← hstates v hvw, hv])
  · rw [hhandle]
    by_cases hvw : v = w
    · rw [hvw]
      exact htaken
    · rw [huses _ (hne v hvw), hbusy _ (hne v hvw)]
      exact hi.taken v (by rw [← hstates v hvw]; exact hv)
  · by_cases hh : h = s.handleAt w
    · exact ⟨w, by rw [hhandle, hh]⟩
    · obtain ⟨v, hv⟩ := hi.current h (by rw [← huses h hh, ← hbusy h hh]; exact hpos)
      exact ⟨v, by rw [hhandle, hv]⟩
  · rw [hpast]
    refine hi.past h (Multiset.count_pos.mp ?_)
    have hpos := Multiset.count_pos.mpr hh
    by_cases hw : h = s.handleAt w
    · rwa [hw, ← hstale, ← hw]
    · rwa [← htok (.stale h) hw]
  · rw [hpast] at hh
    have hw : h ≠ s.handleAt w := fun he => not_past hN s w (he ▸ hh)
    rw [hdel h hw, hi.deletedPast h hh]
  · rw [hpast] at hh
    by_cases hw : h = s.handleAt w
    · rw [hw, hdelw]
    · rw [hdel h hw, htok (.dead h) hw, hi.deletedLive h hh]
  · rw [hhandle, hgens]
    by_cases hvw : v = w
    · rw [hvw, hrelw]
    · rw [hrel v hvw, htok (.dead (s.handleAt v)) (hne v hvw), hi.releases]

/-- Taking a token about one slot leaves the others' counts alone. -/
theorem count_cons_other {t t' : Tok} {h : UInt64} (ht : t.handle = h) (ht' : t'.handle ≠ h) :
    (t ::ₘ R).count t' = R.count t' :=
  Multiset.count_cons_of_ne (fun he => ht' (by rw [he, ht])) R

/-- A slot whose handle has tokens that are not stale is in use. -/
theorem state_ne (hi : PoolInv s R) {w : Fin N}
    (hpos : 0 < uses R (s.handleAt w) + busy R (s.handleAt w)) : s.state w ≠ 0 := by
  intro h0
  have hidle := hi.idle w h0
  omega

/-- At most one acquisition or release of a handle is under way. -/
theorem busy_le_one (hi : PoolInv s R) (h : UInt64) : busy R h ≤ 1 := by
  by_cases hpos : 0 < busy R h
  · obtain ⟨w, rfl⟩ := hi.current h (by omega)
    have htaken := hi.taken w (hi.state_ne (by omega))
    omega
  · omega

/-- While a handle is being acquired or released no pointer to it is counted. -/
theorem uses_eq_zero (hi : PoolInv s R) {w : Fin N} (hpos : 0 < busy R (s.handleAt w)) :
    uses R (s.handleAt w) = 0 := by
  have htaken := hi.taken w (hi.state_ne (by omega))
  omega

/-! ## counting -/

end PoolInv

/-- Write a slot's count. -/
def PoolWorld.recount {U : Type} {N K : Nat} (s : PoolWorld U N K) (w : Fin N) (n : Nat) :
    PoolWorld U N K :=
  { s with pool := { s.pool with refCount_ := Function.update s.pool.refCount_ w n } }

namespace PoolInv

variable {U : Type} {N K : Nat} {s : PoolWorld U N K} {R F : Multiset Tok}

/-- A count may change together with the tokens of its slot. -/
theorem recount (hN : N < 2 ^ 32) {R' : Multiset Tok} (hi : PoolInv s R) (w : Fin N) (n : Nat)
    (hstate : s.state w ≠ 0)
    (htok : ∀ t : Tok, t.handle ≠ s.handleAt w → R'.count t = R.count t)
    (hstale : R'.count (.stale (s.handleAt w)) = R.count (.stale (s.handleAt w)))
    (hdead : R'.count (.dead (s.handleAt w)) = R.count (.dead (s.handleAt w)))
    (hcounted : n = uses R' (s.handleAt w))
    (htaken : 0 < uses R' (s.handleAt w) ∧ busy R' (s.handleAt w) = 0 ∨
      uses R' (s.handleAt w) = 0 ∧ busy R' (s.handleAt w) = 1) :
    PoolInv (s.recount w n) R' := by
  refine update hN hi w hi.repr rfl (fun _ _ => rfl) (fun v hv => ?_) htok hstale (fun _ _ => rfl)
    (fun _ _ => rfl) ?_ hstate htaken ?_ ?_
  · exact Function.update_of_ne hv _ _
  · rw [← hcounted]
    exact Function.update_self _ _ _
  · rw [hdead]
    exact hi.deletedLive _ (not_past hN s w)
  · rw [hdead]
    exact hi.releases w

/-- `fetch_add` by the owner of a pointer. -/
theorem addRef_ref (hN : N < 2 ^ 32) (hi : PoolInv s R) (w : Fin N)
    (hmem : .ref (s.handleAt w) ∈ R) :
    PoolInv (s.recount w (s.pool.refCount_ w + 1)) (.ref (s.handleAt w) ::ₘ R) := by
  have hpos : 0 < uses R (s.handleAt w) := Multiset.count_pos.mpr hmem
  have hstate : s.state w ≠ 0 := hi.state_ne (by omega)
  have htaken := hi.taken w hstate
  refine recount hN hi w _ hstate (fun t ht => count_cons_other rfl ht) (by simp) (by simp) ?_ ?_
  · simp [hi.counted]
  · simp
    omega

/-- `fetch_add` for a handle just popped. -/
theorem addRef_fresh (hN : N < 2 ^ 32) (w : Fin N) (hi : PoolInv s (.fresh (s.handleAt w) ::ₘ F)) :
    PoolInv (s.recount w (s.pool.refCount_ w + 1)) (.ref (s.handleAt w) ::ₘ F) := by
  have hstate : s.state w ≠ 0 := hi.state_ne (by simp only [uses_fresh, busy_fresh]; omega)
  have htaken := hi.taken w hstate
  refine recount hN hi w _ hstate
    (fun t ht => by rw [count_cons_other rfl ht, count_cons_other rfl ht]) (by simp) (by simp) ?_ ?_
  · simp [hi.counted]
  · simp at htaken ⊢
    omega

/-- `fetch_sub` while other pointers are counted. -/
theorem fetchSub_ref (hN : N < 2 ^ 32) (w : Fin N) (hi : PoolInv s (.ref (s.handleAt w) ::ₘ F))
    (hmany : s.pool.refCount_ w ≠ 1) : PoolInv (s.recount w (s.pool.refCount_ w - 1)) F := by
  have hstate : s.state w ≠ 0 := hi.state_ne (by simp only [uses_ref, busy_ref]; omega)
  have htaken := hi.taken w hstate
  have hcounted := hi.counted w
  refine recount hN hi w _ hstate (fun t ht => (count_cons_other rfl ht).symm) (by simp) (by simp)
    ?_ ?_
  · simp [hcounted]
  · simp at htaken hcounted
    omega

/-- `fetch_sub` of the last counted pointer. -/
theorem fetchSub_last (hN : N < 2 ^ 32) (w : Fin N) (hi : PoolInv s (.ref (s.handleAt w) ::ₘ F))
    (hone : s.pool.refCount_ w = 1) : PoolInv (s.recount w 0) (.last (s.handleAt w) ::ₘ F) := by
  have hstate : s.state w ≠ 0 := hi.state_ne (by simp only [uses_ref, busy_ref]; omega)
  have htaken := hi.taken w hstate
  have hcounted := hi.counted w
  refine recount hN hi w _ hstate
    (fun t ht => by rw [count_cons_other rfl ht, count_cons_other rfl ht]) (by simp) (by simp) ?_ ?_
  · simp at hcounted ⊢
    omega
  · simp at htaken hcounted ⊢
    omega

/-! ## releasing and acquiring -/

/-- The deleter runs for the handle whose count has reached zero. -/
theorem delete_last (hN : N < 2 ^ 32) (w : Fin N) (u : U)
    (hi : PoolInv s (.last (s.handleAt w) ::ₘ F)) :
    PoolInv { s with deleted := s.deleted ++ [s.handleAt w], rest := u }
      (.dead (s.handleAt w) ::ₘ F) := by
  have hstate : s.state w ≠ 0 := hi.state_ne (by simp only [uses_last, busy_last]; omega)
  have htaken := hi.taken w hstate
  have hdel := hi.deletedLive _ (not_past hN s w)
  have hrel := hi.releases w
  have hwho := SparseSet.toNat_whoOf_handleAt hN s.pool.set w
  refine update hN hi w hi.repr rfl (fun _ _ => rfl) (fun _ _ => rfl)
    (fun t ht => by rw [count_cons_other rfl ht, count_cons_other rfl ht]) (by simp)
    (fun h hh => ?_) (fun v hv => ?_) ?_ hstate ?_ ?_ ?_
  · simp [List.count_append, Ne.symm hh]
  · have hne : ¬ (w : Nat) = v := fun he => hv (Fin.ext he.symm)
    simp [PoolWorld.releases, PoolWorld.handleAt, hwho, hne]
  · have hcounted := hi.counted w
    simpa using hcounted
  · simpa using htaken
  · simpa using hdel
  · simp [PoolWorld.releases, PoolWorld.handleAt, hwho] at hrel ⊢
    omega

/-- A handle that is not current has no tokens but stale ones. -/
theorem unused (hi : PoolInv s R) {h : UInt64} (hne : ∀ w, h ≠ s.handleAt w) :
    uses R h + busy R h = 0 := by
  by_contra hpos
  obtain ⟨w, hw⟩ := hi.current h (Nat.pos_of_ne_zero hpos)
  exact hne w hw

end PoolInv

/-- `s'` is `s` with slot `w` pushed: idle, and a generation on. -/
structure Pushed {U : Type} {N K : Nat} (s s' : PoolWorld U N K) (w : Fin N) : Prop where
  repr : ∃ b, SparseSet.Repr s'.pool.set b
  state_self : s'.state w = 0
  state_other : ∀ v, v ≠ w → s'.state v = s.state v
  gen_self : (s'.gen w).toNat = (s.gen w).toNat + 1
  gen_other : ∀ v, v ≠ w → s'.gen v = s.gen v
  count_eq : s'.pool.refCount_ = s.pool.refCount_
  deleted_eq : s'.deleted = s.deleted

namespace Pushed

variable {U : Type} {N K : Nat} {s s' : PoolWorld U N K} {w : Fin N}

theorem of_leads {b : Blocks N K} (hr : SparseSet.Repr s.pool.set b) (hK : 0 < K)
    (hL : SparseSet.Leads s'.pool.set (Function.update b.block w ⟨0, hK⟩)
      (Function.update s.pool.set.gen w (s.pool.set.gen w + 1)))
    (hlt : (s.gen w).toNat + 1 < 2 ^ 32) (hcounts : s'.pool.refCount_ = s.pool.refCount_)
    (hdeleted : s'.deleted = s.deleted) : Pushed s s' w := by
  obtain ⟨⟨b', hr', hb'⟩, hg⟩ := hL
  refine ⟨⟨b', hr'⟩, ?_, fun v hv => ?_, ?_, fun v hv => ?_, hcounts, hdeleted⟩
  · rw [PoolWorld.state, hr'.state, hb', Function.update_self]
  · rw [PoolWorld.state, hr'.state, hb', Function.update_of_ne hv, PoolWorld.state, hr.state]
  · rw [PoolWorld.gen, hg, Function.update_self]
    exact toNat_succ32 hlt
  · rw [PoolWorld.gen, hg, Function.update_of_ne hv]
    rfl

theorem handleAt_other (h : Pushed s s' w) {v : Fin N} (hv : v ≠ w) :
    s'.handleAt v = s.handleAt v := by
  have hg : s'.pool.set.gen v = s.pool.set.gen v := h.gen_other v hv
  simp only [PoolWorld.handleAt, SparseSet.handleAt, hg]

/-- The slot's new handle was nobody's. -/
theorem handleAt_self (hN : N < 2 ^ 32) (h : Pushed s s' w) (v : Fin N) :
    s'.handleAt w ≠ s.handleAt v := by
  intro he
  have hv : w = v := Fin.ext (by
    rw [← SparseSet.toNat_whoOf_handleAt hN s'.pool.set w,
      ← SparseSet.toNat_whoOf_handleAt hN s.pool.set v]
    exact congrArg (fun h => (whoOf h).toNat) he)
  subst hv
  have hg := congrArg (fun h => (generationOf h).toNat) he
  simp only [PoolWorld.handleAt, SparseSet.handleAt, generationOf_handleOf] at hg
  have hsucc := h.gen_self
  simp only [PoolWorld.gen] at hsucc
  omega

/-- The slot's old handle is the one handle that becomes past. -/
theorem past_iff (hN : N < 2 ^ 32) (h : Pushed s s' w) (x : UInt64) :
    s'.Past x ↔ s.Past x ∨ x = s.handleAt w := by
  have hsucc := h.gen_self
  constructor
  · rintro ⟨v, hv, hlt⟩
    by_cases hvw : v = w
    · subst hvw
      by_cases hg : (generationOf x).toNat < (s.gen v).toNat
      · exact .inl ⟨v, hv, hg⟩
      · right
        have hgen : generationOf x = s.gen v := UInt32.toNat_inj.mp (by omega)
        have hwho : whoOf x = UInt32.ofNat v := by
          rw [← UInt32.toNat_inj, hv, SparseSet.toNat_ofFin hN]
        rw [← handleOf_eta x, hgen, hwho]
        rfl
    · exact .inl ⟨v, hv, by rwa [h.gen_other v hvw] at hlt⟩
  · rintro (⟨v, hv, hlt⟩ | rfl)
    · refine ⟨v, hv, ?_⟩
      by_cases hvw : v = w
      · subst hvw
        omega
      · rwa [h.gen_other v hvw]
    · refine ⟨w, SparseSet.toNat_whoOf_handleAt hN s.pool.set w, ?_⟩
      rw [PoolWorld.handleAt, SparseSet.handleAt, generationOf_handleOf, hsucc]
      exact Nat.lt_succ_self _

end Pushed

namespace PoolInv

variable {U : Type} {N K : Nat} {s : PoolWorld U N K} {R F : Multiset Tok}

/-- `Push` of the handle the deleter has run for. -/
theorem push_dead (hN : N < 2 ^ 32) {s' : PoolWorld U N K} {w : Fin N} (hp : Pushed s s' w)
    (hi : PoolInv s (.dead (s.handleAt w) ::ₘ F)) : PoolInv s' (.stale (s.handleAt w) ::ₘ F) := by
  have hstate : s.state w ≠ 0 := hi.state_ne (by simp only [uses_dead, busy_dead]; omega)
  have htaken := hi.taken w hstate
  simp at htaken
  have hdead : F.count (.dead (s.handleAt w)) = 0 := by
    have hb := htaken.2
    simp only [busy] at hb
    omega
  have hsame : ∀ {h}, h ≠ s.handleAt w →
      uses (.dead (s.handleAt w) ::ₘ F) h = uses (.stale (s.handleAt w) ::ₘ F) h ∧
      busy (.dead (s.handleAt w) ::ₘ F) h = busy (.stale (s.handleAt w) ::ₘ F) h := by
    intro h hh
    simp [uses, busy, hh]
  have hunused := hi.unused (hp.handleAt_self hN)
  rw [(hsame (hp.handleAt_self hN w)).1, (hsame (hp.handleAt_self hN w)).2] at hunused
  refine ⟨hp.repr, fun v => ?_, fun v hv => ?_, fun v hv => ?_, fun h hpos => ?_, fun h hh => ?_,
    fun h hh => ?_, fun h hh => ?_, fun v => ?_⟩
  · rw [hp.count_eq, hi.counted]
    by_cases hvw : v = w
    · subst hvw
      simp
      omega
    · rw [hp.handleAt_other hvw, (hsame (handleAt_ne hN s hvw)).1]
  · by_cases hvw : v = w
    · subst hvw
      omega
    · rw [hp.handleAt_other hvw, ← (hsame (handleAt_ne hN s hvw)).1,
        ← (hsame (handleAt_ne hN s hvw)).2]
      exact hi.idle v (by rw [← hp.state_other v hvw, hv])
  · have hvw : v ≠ w := fun he => hv (by rw [he, hp.state_self])
    rw [hp.handleAt_other hvw, ← (hsame (handleAt_ne hN s hvw)).1,
      ← (hsame (handleAt_ne hN s hvw)).2]
    exact hi.taken v (by rw [← hp.state_other v hvw]; exact hv)
  · have hw : h ≠ s.handleAt w := by
      rintro rfl
      simp at hpos
      omega
    rw [← (hsame hw).1, ← (hsame hw).2] at hpos
    obtain ⟨v, rfl⟩ := hi.current h hpos
    have hvw : v ≠ w := fun he => hw (by rw [he])
    exact ⟨v, (hp.handleAt_other hvw).symm⟩
  · rw [hp.past_iff hN]
    by_cases hw : h = s.handleAt w
    · exact .inr hw
    · refine .inl (hi.past h (Multiset.mem_cons_of_mem ?_))
      exact (Multiset.mem_cons.mp hh).resolve_left fun he => hw (by injection he)
  · rw [hp.deleted_eq]
    by_cases hw : h = s.handleAt w
    · rw [hw, hi.deletedLive _ (not_past hN s w), Multiset.count_cons_self, hdead]
    · exact hi.deletedPast h (((hp.past_iff hN h).mp hh).resolve_right hw)
  · rw [hp.past_iff hN, not_or] at hh
    rw [hp.deleted_eq, hi.deletedLive h hh.1]
    simp [hh.2]
  · have hrel := hi.releases v
    rw [PoolWorld.releases, hp.deleted_eq]
    rw [PoolWorld.releases] at hrel
    by_cases hvw : v = w
    · subst hvw
      have hb := hunused
      simp only [busy] at hb
      rw [Multiset.count_cons_self, hdead] at hrel
      rw [hrel, hp.gen_self]
      omega
    · rw [hrel, hp.handleAt_other hvw, hp.gen_other v hvw]
      simp [handleAt_ne hN s hvw]

/-- `Pop` of an idle slot. -/
theorem pop_fresh (hN : N < 2 ^ 32) {s' : PoolWorld U N K} (hi : PoolInv s R) (w : Fin N)
    (hidle : s.state w = 0) (hrepr : ∃ b, SparseSet.Repr s'.pool.set b) (hstate : s'.state w ≠ 0)
    (hstates : ∀ v, v ≠ w → s'.state v = s.state v) (hgen : s'.pool.set.gen = s.pool.set.gen)
    (hcounts : s'.pool.refCount_ = s.pool.refCount_) (hdeleted : s'.deleted = s.deleted) :
    PoolInv s' (.fresh (s.handleAt w) ::ₘ R) := by
  have hnone := hi.idle w hidle
  refine update hN hi w hrepr hgen hstates (fun v _ => by rw [hcounts])
    (fun t ht => count_cons_other rfl ht) (by simp) (fun h _ => by rw [hdeleted])
    (fun v _ => by rw [PoolWorld.releases, hdeleted, PoolWorld.releases]) ?_ hstate ?_ ?_ ?_
  · rw [hcounts, hi.counted]
    simp
  · simp
    omega
  · rw [hdeleted, hi.deletedLive _ (not_past hN s w)]
    simp
  · rw [PoolWorld.releases, hdeleted, ← PoolWorld.releases, hi.releases]
    simp

/-! ## what does not matter -/

/-- Stale handles may be repeated or forgotten. -/
theorem restale {R' : Multiset Tok} (hi : PoolInv s R)
    (hcount : ∀ t, (∀ h, t ≠ .stale h) → R'.count t = R.count t)
    (hsub : ∀ h, .stale h ∈ R' → .stale h ∈ R) : PoolInv s R' := by
  have huses : ∀ h, uses R' h = uses R h := fun h => hcount _ (by simp)
  have hdead : ∀ h, R'.count (.dead h) = R.count (.dead h) := fun h => hcount _ (by simp)
  have hbusy : ∀ h, busy R' h = busy R h := fun h => by
    rw [busy, busy, hcount (.last h) (by simp), hdead, hcount (.fresh h) (by simp)]
  refine ⟨hi.repr, fun w => ?_, fun w hw => ?_, fun w hw => ?_, fun h hpos => ?_,
    fun h hh => hi.past h (hsub h hh), hi.deletedPast, fun h hh => ?_, fun w => ?_⟩
  · rw [huses, hi.counted]
  · rw [huses, hbusy]
    exact hi.idle w hw
  · rw [huses, hbusy]
    exact hi.taken w hw
  · rw [huses, hbusy] at hpos
    exact hi.current h hpos
  · rw [hdead, hi.deletedLive h hh]
  · rw [hdead, hi.releases]

/-- A stale handle may be repeated. -/
theorem stale_dup (hi : PoolInv s R) {h : UInt64} (hmem : .stale h ∈ R) :
    PoolInv s (.stale h ::ₘ R) := by
  refine restale hi (fun _ ht => Multiset.count_cons_of_ne (ht h) R) fun x hx => ?_
  cases Multiset.mem_cons.mp hx with
  | inl he => rwa [he]
  | inr hx => exact hx

/-- A stale handle may be forgotten. -/
theorem stale_drop {h : UInt64} (hi : PoolInv s (.stale h ::ₘ R)) : PoolInv s R :=
  restale hi (fun _ ht => (Multiset.count_cons_of_ne (ht h) R).symm)
    fun _ hx => Multiset.mem_cons_of_mem hx

/-- The objects' own handles and the rest of the state do not matter. -/
theorem congr {s' : PoolWorld U N K} (hi : PoolInv s R) (hset : s'.pool.set = s.pool.set)
    (hcounts : s'.pool.refCount_ = s.pool.refCount_) (hdeleted : s'.deleted = s.deleted) :
    PoolInv s' R := by
  obtain ⟨⟨set, handles, counts⟩, deleted, rest⟩ := s
  obtain ⟨⟨set', handles', counts'⟩, deleted', rest'⟩ := s'
  simp only at hset hcounts hdeleted
  subst hset hcounts hdeleted
  exact ⟨hi.repr, hi.counted, hi.idle, hi.taken, hi.current, hi.past, hi.deletedPast,
    hi.deletedLive, hi.releases⟩

end PoolInv

end ServerStudy
