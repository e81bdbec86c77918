import Mathlib.Algebra.Order.BigOperators.Group.Multiset
import ServerStudy.SparsePool.RefCount
import ServerStudy.Threads.Play

/-!
# ServerStudy.SparsePool.Exact

What sound tokens say about the pool: in every configuration that threads reach
from a new pool,

* `refCount_exact` — counts are exact, a slot is released once, by whoever
  drops its last pointer, and a live pointer's handle is never handed out again.
-/

namespace ServerStudy

namespace RefCount

variable {U : Type} {N K n : Nat} {ι : Type} [Fintype ι]
  {deleter : Nat → U → U} {postRelease : U → U}

/-- Configurations of threads on one pool. -/
abbrev PtrConfig (U : Type) (N K n : Nat) (ι : Type) (deleter : Nat → U → U)
    (postRelease : U → U) : Type 1 :=
  Config (client (port (N := N) (K := K) deleter postRelease) n) ι

/-- A new pool, and threads without pointers. -/
def initial (u : U) : PtrConfig U N K n ι deleter postRelease where
  shared := ⟨.new N K, [], u⟩
  thread _ := ⟨fun _ => none, none⟩

/-- No slot has been released `2 ^ 32` times. -/
def Fresh (s : PoolWorld U N K) : Prop := ∀ w, s.releases w < 2 ^ 32

/-- The configurations reached from a new pool. -/
abbrev Reached [DecidableEq ι] (u : U) : PtrConfig U N K n ι deleter postRelease → Prop :=
  Config.Reach (noAnswers _) Fresh (initial u)

/-- The variable that the operation thread `t` is in drops. -/
def dropping (c : PtrConfig U N K n ι deleter postRelease) (t : ι) : Option (Fin n) :=
  (c.thread t).running.bind fun x => PtrOp.dropped x.op

/-- The variables with a live pointer that carries `h`: an operation may not be
dropping it. -/
def live (c : PtrConfig U N K n ι deleter postRelease) (h : UInt64) : Finset (ι × Fin n) :=
  Finset.univ.filter fun x =>
    Carries ((c.thread x.1).locals x.2) h ∧ dropping c x.1 ≠ some x.2

/-- Thread `t` is in an operation that drops a pointer carrying `h`. -/
def Drops (c : PtrConfig U N K n ι deleter postRelease) (t : ι) (h : UInt64) : Prop :=
  ∃ i, dropping c t = some i ∧ Carries ((c.thread t).locals i) h

/-- What holds of a configuration. -/
structure Exact (c : PtrConfig U N K n ι deleter postRelease) : Prop where
  /-- no access is out of range -/
  sound : ∀ t e, ¬ c.Faults (noAnswers _) t e
  /-- every live pointer is counted -/
  counted : ∀ w, (live c (c.shared.handleAt w)).card ≤ c.shared.pool.refCount_ w
  /-- with no operation in progress nothing else is -/
  exact : c.Quiescent → ∀ w,
    c.shared.pool.refCount_ w = (live c (c.shared.handleAt w)).card
  /-- and the slots in use are those with a pointer -/
  acquired : c.Quiescent → ∀ w, c.shared.state w ≠ 0 ↔ live c (c.shared.handleAt w) ≠ ∅
  /-- the deleter runs at most once for a handle -/
  once : ∀ h, c.shared.deleted.count h ≤ 1
  /-- and it has run for those whose slot has moved on -/
  released : c.Quiescent → ∀ h, c.shared.deleted.count h = 1 ↔ c.shared.Past h

/-- What holds of a step of thread `t`. -/
structure ExactStep (c c' : PtrConfig U N K n ι deleter postRelease) (t : ι) : Prop where
  /-- a slot in use is freed by no other way than a push of its handle -/
  frees : ∀ w, c.shared.state w ≠ 0 → c'.shared.state w = 0 →
    c'.shared.handleAt w ≠ c.shared.handleAt w
  /-- the deleter runs by the hand of who drops the last pointer -/
  deletes : ∀ h, c'.shared.deleted.count h ≠ c.shared.deleted.count h →
    Drops c t h ∧ live c h = ∅ ∧ ∃ w, h = c.shared.handleAt w ∧ c.shared.pool.refCount_ w = 0
  /-- who pushes the handle after it -/
  pushes : ∀ w, c'.shared.handleAt w ≠ c.shared.handleAt w →
    Drops c t (c.shared.handleAt w) ∧ live c (c.shared.handleAt w) = ∅ ∧
      c.shared.pool.refCount_ w = 0 ∧ c.shared.deleted.count (c.shared.handleAt w) = 1
  /-- a slot is handed out when no live pointer has its handle -/
  acquires : ∀ w, c.shared.state w = 0 → c'.shared.state w ≠ 0 →
    live c (c'.shared.handleAt w) = ∅

/-! ## tokens and live pointers -/

variable {c c' : PtrConfig U N K n ι deleter postRelease} {R : ι → Multiset Tok}

/-- The discipline of these threads, whose tokens are `R`. -/
abbrev Fair (c : PtrConfig U N K n ι deleter postRelease) (R : ι → Multiset Tok) : Prop :=
  Good (discipline (port deleter postRelease)) (noAnswers _) c R

theorem uses_cell {p : Option SharedPoolPtr} {r : Multiset Tok} (hc : Cell p r) {h : UInt64}
    (hstale : .stale h ∉ r) : uses r h = if Carries p h then 1 else 0 := by
  cases p with
  | none =>
      simp only [Cell] at hc
      simp [hc, uses, Carries]
  | some q =>
      obtain ⟨pool, x⟩ := q
      cases pool with
      | false =>
          simp only [Cell, Bool.false_eq_true, if_false] at hc
          simp [hc, uses, Carries]
      | true =>
          simp only [Cell, if_true] at hc
          rcases hc with rfl | rfl
          · simp [uses, Carries, Multiset.count_singleton, eq_comm]
          · have hx : x ≠ h := by
              rintro rfl
              simp at hstale
            simp [uses, Carries, hx]

/-- The pointers a set of variables holds. -/
theorem uses_cells {vars : PtrVars n} {f : Fin n → Multiset Tok} (hf : ∀ i, Cell (vars i) (f i))
    {h : UInt64} (S : Finset (Fin n)) (hstale : .stale h ∉ ∑ i ∈ S, f i) :
    uses (∑ i ∈ S, f i) h = ∑ i ∈ S, if Carries (vars i) h then 1 else 0 := by
  rw [uses, Multiset.count_sum']
  refine Finset.sum_congr rfl fun i hi => uses_cell (hf i) fun hmem => hstale ?_
  exact Multiset.mem_sum.mpr ⟨i, hi, hmem⟩

/-- The live pointers, thread by thread. -/
theorem card_live (c : PtrConfig U N K n ι deleter postRelease) (h : UInt64) :
    (live c h).card = ∑ t, ∑ i, if Carries ((c.thread t).locals i) h ∧ dropping c t ≠ some i
      then 1 else 0 := by
  rw [live, Finset.card_filter, Fintype.sum_prod_type]

/-- A thread between operations has a counted pointer in each variable that
carries a current handle. -/
theorem uses_idle (hfair : Fair c R) {t : ι} (hidle : (c.thread t).running = none) {h : UInt64}
    (hstale : .stale h ∉ R t) :
    uses (R t) h = ∑ i, if Carries ((c.thread t).locals i) h ∧ dropping c t ≠ some i
      then 1 else 0 := by
  have hown := hfair.owns t
  rw [Thread.Owns, hidle] at hown
  obtain ⟨f, hf, hr⟩ := hown
  rw [hr] at hstale ⊢
  rw [uses_cells hf _ hstale]
  simp [dropping, hidle]

/-- A thread in an operation still has one in each variable it does not drop. -/
theorem uses_running (hfair : Fair c R) {t : ι}
    {x : Running (client (port (N := N) (K := K) deleter postRelease) n)}
    (hrun : (c.thread t).running = some x) {h : UInt64} (hstale : .stale h ∉ R t) :
    (∑ i, if Carries ((c.thread t).locals i) h ∧ dropping c t ≠ some i then 1 else 0) ≤
      uses (R t) h := by
  obtain ⟨f, hf, hle, -⟩ := hfair.held hrun
  have hstale' : .stale h ∉ ∑ i ∈ kept x.op, f i := fun hmem =>
    hstale (Multiset.mem_of_le hle hmem)
  refine le_trans (le_of_eq ?_) (Multiset.count_le_of_le _ hle)
  rw [← uses, uses_cells hf _ hstale']
  unfold kept
  rw [Finset.sum_filter]
  refine Finset.sum_congr rfl fun i _ => ?_
  simp only [dropping, hrun, Option.bind_some, ← ite_and, and_comm]

theorem stale_not_mem (hN : N < 2 ^ 32) (hfair : Fair c R) (w : Fin N) (t : ι) :
    .stale (c.shared.handleAt w) ∉ R t := fun hmem =>
  PoolInv.not_past hN c.shared w (hfair.inv.past _ (Multiset.mem_sum.mpr ⟨t, Finset.mem_univ t, hmem⟩))

/-- Live pointers to a current handle are counted. -/
theorem card_live_le (hN : N < 2 ^ 32) (hfair : Fair c R) (w : Fin N) :
    (live c (c.shared.handleAt w)).card ≤ uses (∑ t, R t) (c.shared.handleAt w) := by
  rw [card_live, uses, Multiset.count_sum']
  refine Finset.sum_le_sum fun t _ => ?_
  have hstale := stale_not_mem hN hfair w t
  cases hrun : (c.thread t).running with
  | none => exact (uses_idle hfair hrun hstale).ge
  | some x => exact uses_running hfair hrun hstale

/-- With no operation in progress nothing else is. -/
theorem card_live_eq (hN : N < 2 ^ 32) (hfair : Fair c R) (hq : c.Quiescent) (w : Fin N) :
    (live c (c.shared.handleAt w)).card = uses (∑ t, R t) (c.shared.handleAt w) := by
  rw [card_live, uses, Multiset.count_sum']
  exact Finset.sum_congr rfl fun t _ =>
    (uses_idle hfair (hq t) (stale_not_mem hN hfair w t)).symm

/-- With no operation in progress nothing is being released or acquired. -/
theorem busy_quiescent (hfair : Fair c R) (hq : c.Quiescent) (h : UInt64) :
    busy (∑ t, R t) h = 0 := by
  have hnone : ∀ x : Tok, (∀ y, x ≠ .ref y ∧ x ≠ .stale y) → (∑ t, R t).count x = 0 := by
    intro x hx
    refine Multiset.count_eq_zero.mpr fun hmem => ?_
    obtain ⟨t, -, ht⟩ := Multiset.mem_sum.mp hmem
    have hown := hfair.owns t
    rw [Thread.Owns, hq t] at hown
    obtain ⟨f, hf, hr⟩ := hown
    rw [hr] at ht
    obtain ⟨y, hy | hy⟩ := mem_cells hf ht
    · exact (hx y).1 hy
    · exact (hx y).2 hy
  simp [busy, hnone]

/-! ## the invariant and the step -/

variable [DecidableEq ι]

theorem exact_of_fair (hN : N < 2 ^ 32) (hfresh : Fresh c.shared) (hfair : Fair c R) :
    Exact c := by
  have hinv := hfair.inv
  refine ⟨fun t e hf => hfair.tolerated hfresh hf, fun w => ?_, fun hq w => ?_, fun hq w => ?_,
    fun h => ?_, fun hq h => ?_⟩
  · rw [hinv.counted]
    exact card_live_le hN hfair w
  · rw [hinv.counted, card_live_eq hN hfair hq]
  · have hb := busy_quiescent hfair hq (c.shared.handleAt w)
    have hcard := card_live_eq hN hfair hq w
    rw [← Finset.nonempty_iff_ne_empty, ← Finset.card_pos, hcard]
    constructor
    · intro hw
      have htaken := hinv.taken w hw
      omega
    · exact fun hpos => hinv.state_ne (by omega)
  · by_cases hp : c.shared.Past h
    · exact (hinv.deletedPast h hp).le
    · have hle := hinv.busy_le_one h
      rw [hinv.deletedLive h hp]
      simp only [busy] at hle
      omega
  · constructor
    · intro hone
      by_contra hp
      have hb := busy_quiescent hfair hq h
      rw [hinv.deletedLive h hp] at hone
      simp only [busy] at hb
      omega
    · exact hinv.deletedPast h

omit [DecidableEq ι] in
/-- A thread with a release under way is in the operation that drops the pointer. -/
theorem drops_of_mem (hfair : Fair c R) {t : ι} (hrun : (c.thread t).running.isSome) {h : UInt64}
    (hmem : .last h ∈ R t ∨ .dead h ∈ R t) : Drops c t h := by
  obtain ⟨x, hx⟩ := Option.isSome_iff_exists.mp hrun
  obtain ⟨f, -, -, hcarry⟩ := hfair.held hx
  have hc : Carries ((PtrOp.dropped x.op).bind (c.thread t).locals) h := hcarry h hmem
  cases hd : PtrOp.dropped x.op with
  | none =>
      rw [hd] at hc
      simp [Carries] at hc
  | some i =>
      rw [hd] at hc
      exact ⟨i, by simp [dropping, hx, hd], hc⟩

omit [DecidableEq ι] in
/-- And no live pointer carries its handle. -/
theorem live_eq_empty (hN : N < 2 ^ 32) (hfair : Fair c R) {w : Fin N}
    (huses : uses (∑ t, R t) (c.shared.handleAt w) = 0) : live c (c.shared.handleAt w) = ∅ := by
  have hle := card_live_le hN hfair w
  rw [huses] at hle
  exact Finset.card_eq_zero.mp (Nat.le_zero.mp hle)

theorem exactStep_of_fair (hN : N < 2 ^ 32) (hK : 0 < K) {t : ι} (hfresh : Fresh c.shared)
    (hfresh' : Fresh c'.shared) (hfair : Fair c R)
    (hstep : Config.Step (noAnswers _) t c c') : ExactStep c c' t := by
  have hinv := hfair.inv
  have hsum : ∀ x, x ∈ R t → 0 < (∑ t, R t).count x := fun x hx =>
    Multiset.count_pos.mpr (Multiset.mem_sum.mpr ⟨t, Finset.mem_univ t, hx⟩)
  obtain ⟨hchange, -⟩ := hfair.step (sound hN hK n deleter postRelease) hstep hfresh hfresh'
  have hhandle : ∀ w, c'.shared.gen w = c.shared.gen w →
      c'.shared.handleAt w = c.shared.handleAt w := fun w hw => by
    have hg : c'.shared.pool.set.gen w = c.shared.pool.set.gen w := hw
    simp only [PoolWorld.handleAt, SparseSet.handleAt, hg]
  cases hchange with
  | inl hsame =>
      refine ⟨fun w hw hw' => ?_, fun h hh => absurd (by rw [hsame]) hh,
        fun w hw => absurd (by rw [hsame]) hw, fun w hw hw' => ?_⟩
      · rw [hsame] at hw'
        exact absurd hw' hw
      · rw [hsame] at hw'
        exact absurd hw hw'
  | inr hchange =>
      obtain ⟨hrun, hpush, hdel, hfree⟩ := hchange
      refine ⟨fun w hw hw' he => ?_, fun h hh => ?_, fun w hw => ?_, fun w hw hw' => ?_⟩
      · have hg := congrArg generationOf he
        simp only [PoolWorld.handleAt, SparseSet.handleAt, generationOf_handleOf] at hg
        exact hfree w hw hw' hg
      · have hmem := hdel h hh
        have hpos := hsum _ hmem
        have hbusy : 0 < busy (∑ t, R t) h := by
          simp only [busy]
          omega
        obtain ⟨w, rfl⟩ := hinv.current h (by omega)
        have huses := hinv.uses_eq_zero hbusy
        exact ⟨drops_of_mem hfair hrun (.inl hmem), live_eq_empty hN hfair huses, w, rfl,
          (hinv.counted w).trans huses⟩
      · have hmem := hpush w fun hg => hw (hhandle w hg)
        have hpos := hsum _ hmem
        have hle := hinv.busy_le_one (c.shared.handleAt w)
        have hdead := hinv.deletedLive _ (PoolInv.not_past hN c.shared w)
        have huses := hinv.uses_eq_zero (w := w) (by simp only [busy]; omega)
        simp only [busy] at hle
        exact ⟨drops_of_mem hfair hrun (.inr hmem), live_eq_empty hN hfair huses,
          (hinv.counted w).trans huses, by omega⟩
      · have hidle := hinv.idle w hw
        have hgen : c'.shared.gen w = c.shared.gen w := by
          by_contra hg
          have hpos := hsum _ (hpush w hg)
          simp only [busy] at hidle
          omega
        rw [hhandle w hgen]
        exact live_eq_empty hN hfair hidle.1

/-! ## the run -/

omit [Fintype ι] in
/-- A new pool, and no tokens. -/
theorem poolInv_new (hK : 0 < K) (u : U) : PoolInv (⟨.new N K, [], u⟩ : PoolWorld U N K) 0 := by
  have hpast : ∀ h, ¬ PoolWorld.Past ⟨Pool.new N K, [], u⟩ h := by
    rintro h ⟨w, -, hlt⟩
    exact absurd hlt (Nat.not_lt_zero _)
  exact ⟨⟨_, SparseSet.repr_new hK⟩, fun w => rfl, fun w _ => ⟨rfl, rfl⟩,
    fun w hw => absurd rfl hw, fun h hpos => absurd hpos (Nat.lt_irrefl 0),
    fun h hh => absurd hh (Multiset.notMem_zero _), fun h hp => absurd hp (hpast h),
    fun h _ => rfl, fun w => rfl⟩

omit [DecidableEq ι] in
theorem fair_initial (hK : 0 < K) (u : U) :
    Fair (initial u : PtrConfig U N K n ι deleter postRelease) fun _ => 0 := by
  refine ⟨?_, fun t => ⟨fun _ => 0, fun _ => rfl, by simp⟩⟩
  rw [Finset.sum_const_zero]
  exact poolInv_new hK u

theorem fresh_new (u : U) : Fresh (⟨.new N K, [], u⟩ : PoolWorld U N K) :=
  fun w => by simp [PoolWorld.releases]

/-- **Reference counting is exact**, whatever the threads do in whatever order. -/
theorem refCount_exact (hN : N < 2 ^ 32) (hK : 0 < K) (u : U)
    (c : PtrConfig U N K n ι deleter postRelease) (hc : Reached u c) :
    Exact c ∧ ∀ t c', Config.Step (noAnswers _) t c c' → Fresh c'.shared → ExactStep c c' t := by
  obtain ⟨hfresh, R, hfair⟩ :=
    (fair_initial hK u).run (sound hN hK n deleter postRelease) (fresh_new u) hc
  exact ⟨exact_of_fair hN hfresh hfair,
    fun t c' hstep hfresh' => exactStep_of_fair hN hK hfresh hfresh' hfair hstep⟩

instance : DecidablePred (Fresh : PoolWorld U N K → Prop) := fun s =>
  inferInstanceAs (Decidable (∀ w, s.releases w < 2 ^ 32))

instance (op : (client (port (N := N) (K := K) deleter postRelease) n).Op) (vars : PtrVars n) :
    Decidable ((client (port (N := N) (K := K) deleter postRelease) n).can op vars) :=
  PtrOp.decidableCan op vars

instance (σ β : Type) (s : σ) (q : NoQuery β) :
    Decidable (noAnswers σ β s q (Empty.elim q)) := q.elim

/-- A pointer is acquired, copied and dropped twice, and between the deleter of the second drop
and its push another thread acquires the other slot. -/
theorem refCount_exact_dropped :
    ∃ c : PtrConfig Unit 2 2 2 (Fin 2) (fun _ => id) id,
      (c.shared.deleted, c.shared.pool.refCount_ 0, c.shared.pool.refCount_ 1,
        (c.thread 1).locals 0) = ([0], 0, 1, some ⟨true, 1⟩) ∧
      (c.thread 0).running.isSome ∧ Exact c ∧
      ∀ t c', Config.Step (noAnswers _) t c c' → Fresh c'.shared → ExactStep c c' t := by
  have hplay : ((Config.play (noAnswers _) (fun _ _ (q : Empty) => q.elim) Fresh
      [(0, .whole (PtrOp.acquire 0 1)), (0, .whole (PtrOp.copy 1 0)), (0, .whole (PtrOp.destroy 0)),
        (0, .start (PtrOp.destroy 1)), (0, .acts 5), (1, .whole (PtrOp.acquire 0 1))]
      (initial () : PtrConfig Unit 2 2 2 (Fin 2) (fun _ => id) id)).map fun c =>
        ((c.shared.deleted, c.shared.pool.refCount_ 0, c.shared.pool.refCount_ 1,
          (c.thread 1).locals 0), (c.thread 0).running.isSome)) =
      some (([0], 0, 1, some ⟨true, 1⟩), true) := by
    decide +kernel
  obtain ⟨c, h, hvals⟩ := Option.map_eq_some_iff.mp hplay
  obtain ⟨hvals, hrun⟩ := Prod.mk.inj hvals
  have hc := (Config.Reach.play .refl (fresh_new ()) h).1
  exact ⟨c, hvals, hrun, refCount_exact (by decide) (by decide) () c hc⟩

end RefCount

end ServerStudy
