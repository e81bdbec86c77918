import ServerStudy.Scheduler.Conserve

/-!
# ServerStudy.Scheduler.Relock

Why a worker may draw itself as a victim: it never gets as far as `try_lock`.

A worker looks for tasks after its own ring was found empty, and nobody else puts
a task into it, so its own ring turns it away before the first `try_lock` of
`TryStealFrom`.

* `Fits.empty` — the ring of a worker that is looking for tasks is empty;
* `never_relocks` — so no `try_lock` is on a mutex its caller owns.
-/

namespace ServerStudy

namespace Scheduler

variable {n : Nat} {τ : Type} {tasks : List τ} {s : State n τ} {i : Fin n} {w : Worker τ}
  {pc : Pc n τ}

/-! ## mutexes -/

/-- `ctx.mtx_`, or `mtx_` of a worker. -/
inductive Mtx (n : Nat) where
  | ctx
  | worker (i : Fin n)
  deriving DecidableEq

/-- A call of `try_lock`, with what the caller owns at that point. -/
structure TryLock (n : Nat) where
  owned : List (Mtx n)
  mtx_ : Mtx n

/-- The calls of `try_lock` that worker `i` may make in its next statement, in
order. -/
def Pc.tryLocks (i : Fin n) : Pc n τ → List (TryLock n)
  | .tryFetchGlobal => [⟨[], .ctx⟩, ⟨[.ctx], .worker i⟩]
  | .tryStealFrom _ victim => [⟨[], .worker victim⟩, ⟨[.worker victim], .worker i⟩]
  | _ => []

/-! ## a worker's own ring -/

theorem Fits.empty (h : Fits i w pc) (hpc : pc.searching = true) : w.queue_.count = 0 :=
  (h.searching hpc).count_eq kQueueSize_lt

/-- No call is on a mutex its caller owns. -/
theorem Fits.tryLocks (h : Fits i w pc) : ∀ call ∈ pc.tryLocks i, call.mtx_ ∉ call.owned := by
  intro call hcall
  cases pc with
  | tryFetchGlobal =>
      simp only [Pc.tryLocks, List.mem_cons, List.not_mem_nil, or_false] at hcall
      rcases hcall with rfl | rfl <;> simp
  | tryStealFrom k victim =>
      have hne := h.victim k victim rfl
      simp only [Pc.tryLocks, List.mem_cons, List.not_mem_nil, or_false] at hcall
      rcases hcall with rfl | rfl
      · simp
      · simpa using hne.symm
  | _ => simp [Pc.tryLocks] at hcall

/-- The loop of `TryFetchGlobal` locks nothing. -/
theorem fetch_ne_relock (cnt : Nat) (g : List τ) (q : Ring kQueueSize_ τ) :
    fetch cnt g q ≠ .error .relock := by
  induction cnt generalizing g q with
  | zero => simp [fetch]
  | succ cnt ih =>
      cases g with
      | nil => simp [fetch]
      | cons task g =>
          rw [fetch]
          exact ih g _

theorem tryFetchGlobal_ne_relock (owns localOwns : Bool) (num_threads_ : Nat) (g : List τ)
    (w : Worker τ) (batch_size : Nat) :
    tryFetchGlobal owns localOwns num_threads_ g w batch_size ≠ .error .relock := by
  unfold tryFetchGlobal
  split_ifs
  · simp
  · simp
  · intro h
    dsimp only at h
    generalize fetchCount num_threads_ g w batch_size = cnt at h
    cases hfetch : fetch cnt g w.queue_ with
    | error e =>
        rw [hfetch] at h
        injection h with h
        exact fetch_ne_relock cnt g w.queue_ (h ▸ hfetch)
    | ok r =>
        rw [hfetch] at h
        cases h

/-- A steal is the only statement that could relock. -/
theorem Inv.ne_relock (h : Inv tasks s) {use_complex : Bool} (ch : Choice n) :
    Worker.step use_complex i ch s ≠ .error .relock := by
  have hf := h.fits i
  unfold Worker.step
  intro hstep
  cases hpc : s.pc i <;> simp only [hpc] at hstep
  case tryFetchGlobal =>
    cases hfetch : Scheduler.tryFetchGlobal (ch.owns && !s.main.holds) ch.localOwns n
        s.global_queue_ (s.workers i) 256 with
    | error e =>
        simp only [hfetch, Except.map, Except.error.injEq] at hstep
        exact tryFetchGlobal_ne_relock _ _ _ _ _ _ (hstep ▸ hfetch)
    | ok r =>
        rw [hfetch] at hstep
        cases hstep
  case tryStealFrom k v =>
    cases hsteal : Scheduler.tryStealFrom ch.owns ch.localOwns s.workers i v 256 with
    | error e' => exact tryStealFrom_ne_error (hf.victim k v hpc).symm e' hsteal
    | ok r =>
        rw [hsteal] at hstep
        cases hstep
  case take =>
    split_ifs at hstep
    cases hglobal : s.global_queue_ <;> simp only [hglobal] at hstep <;> cases hstep
  all_goals
    try split_ifs at hstep
    all_goals cases hstep

/-- What holds of the workers that look for tasks. -/
structure LocksOthers (s : State n τ) : Prop where
  /-- from the failed `FillBuffer` to the end of `TryStealAny` -/
  empty : ∀ i, (s.pc i).searching = true → (s.workers i).queue_.count = 0
  /-- at the first `try_lock` of `TryStealFrom` -/
  victim : ∀ i k v, s.pc i = .tryStealFrom k v → v ≠ i
  /-- at every `try_lock` -/
  tryLocks : ∀ i, ∀ call ∈ (s.pc i).tryLocks i, call.mtx_ ∉ call.owned
  relock : ∀ i ch, Worker.step true i ch s ≠ .error .relock

/-- **No worker locks a mutex twice**, however many there are, whatever they do in
whatever order, and whomever they draw. -/
theorem never_relocks (tasks : List τ) (s : State n τ) (hs : Reachable true tasks s) :
    LocksOthers s := by
  have h := hs.inv
  exact ⟨fun i => (h.fits i).empty, fun i => (h.fits i).victim, fun i => (h.fits i).tryLocks,
    fun _ ch => h.ne_relock ch⟩

/-- Where a worker is about to `try_lock` the `mtx_` of its victim. -/
def Pc.locking : Pc n τ → Option (Nat × Fin n)
  | .tryStealFrom k victim => some (k, victim)
  | _ => none

/-- Worker 1 could not refill its ring, has drawn itself, and then worker 0, which has tasks. -/
theorem never_relocks_drawn : ∃ s : State 2 Nat,
    (s.pc 1).locking = some (1, 0) ∧ (s.workers 0).queue_.count = 2 ∧ LocksOthers s := by
  have hplay : (play true anyStep (start true [1, 2] 0)
      (List.replicate 3 (some (0, ⟨true, true, 1⟩)) ++ List.replicate 5 (some (1, ⟨false, true, 1⟩)) ++
        List.replicate 2 (some (1, ⟨true, true, 0⟩)))).map (fun s : State 2 Nat =>
      ((s.pc 1).locking, (s.workers 0).queue_.count)) = some (some (1, 0), 2) := by
    decide +kernel
  obtain ⟨s, hs, hfields⟩ := Option.map_eq_some_iff.mp hplay
  obtain ⟨hpc, hcount⟩ := Prod.mk.inj hfields
  exact ⟨s, hpc, hcount, never_relocks [1, 2] s
    (reachable_play (.start (started_start true [1, 2] 0)) hs)⟩

end Scheduler

end ServerStudy
