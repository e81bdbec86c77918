import Mathlib.Algebra.Order.BigOperators.Group.Finset
import ServerStudy.Scheduler.Conserve

/-!
# ServerStudy.Shutdown

How the worker threads end: `~IocpCore` posts as many null completions as there are threads and
joins them; the loop of `WorkerThread` (`Network/Server/IocpCore.cpp`) is left at the first null.

The completion port is a queue, to which the kernel adds completions at any time.  What a thread
does with one, `ServerStudy.Server.workerThread`, is `work` steps here, in which it does not look
at the queue.

* `Inv.step` — nulls are neither lost nor taken twice;
* `drained` — when all threads are joined, what was queued before the last null has been handled;
* `shuts_down` — and that happens, whatever the order of the steps, after a bounded number of them.
-/

namespace ServerStudy

namespace Shutdown

variable {n : Nat} {κ : Type}

/-! ## threads -/

/-- Where a worker is. -/
inductive Pc where
  /-- in `GetQueuedCompletionStatus` -/
  | wait
  /-- dealing with a completion: so many steps to go -/
  | handle (left : Nat)
  /-- out of the loop -/
  | left
  deriving DecidableEq

/-- Whether a worker is out of its loop. -/
def Pc.isLeft (pc : Pc) : Bool := pc = .left

/-- Where the main thread is. -/
inductive MainPc where
  /-- the server runs -/
  | serve
  /-- turn `i` of the loop of `~IocpCore` that posts -/
  | post (i : Nat)
  /-- turn `i` of the one that joins -/
  | join (i : Nat)
  /-- `CloseHandle` -/
  | close
  deriving DecidableEq

/-- The port, `none` for a null completion, and the threads.  `dequeued` logs what has been taken
off the queue. -/
structure State (n : Nat) (κ : Type) where
  queue : List (Option κ)
  pc : Fin n → Pc
  main : MainPc
  dequeued : List (Option κ)

/-- Worker `i` goes on to `pc`. -/
def State.goto (s : State n κ) (i : Fin n) (pc : Pc) : State n κ :=
  { s with pc := Function.update s.pc i pc }

/-- The next step of worker `i` in `WorkerThread`, unless it has to wait or is out of the loop. -/
def WorkerThread.step (work : κ → Nat) (i : Fin n) (s : State n κ) : Option (State n κ) :=
  match s.pc i with
  | .wait =>
    match s.queue with
    | [] => none
    | none :: queue => some ({ s with queue, dequeued := s.dequeued ++ [none] }.goto i .left)
    | some k :: queue =>
      some ({ s with queue, dequeued := s.dequeued ++ [some k] }.goto i (.handle (work k)))
  | .handle (left + 1) => some (s.goto i (.handle left))
  | .handle 0 => some (s.goto i .wait)
  | .left => none

/-- The next step of the main thread, unless it has to wait for a worker. -/
def Main.step (s : State n κ) : Option (State n κ) :=
  match s.main with
  | .serve => some { s with main := .post 0 }
  | .post i =>
    if i < n then some { s with queue := s.queue ++ [none], main := .post (i + 1) }
    else some { s with main := .join 0 }
  | .join i =>
    if h : i < n then
      if (s.pc ⟨i, h⟩).isLeft then some { s with main := .join (i + 1) } else none
    else some { s with main := .close }
  | .close => none

/-- A step of a thread. -/
inductive Thread (work : κ → Nat) (s s' : State n κ) : Prop where
  | worker (i : Fin n) : WorkerThread.step work i s = some s' → Thread work s s'
  | main : Main.step s = some s' → Thread work s s'

/-- An operation completes. -/
def complete (s : State n κ) (k : κ) : State n κ := { s with queue := s.queue ++ [some k] }

/-- Steps in any order, so many of which are the threads'. -/
inductive Runs (work : κ → Nat) : Nat → State n κ → State n κ → Prop where
  | refl (s : State n κ) : Runs work 0 s s
  | kernel {k : Nat} {s s' : State n κ} (x : κ) : Runs work k s s' → Runs work k s (complete s' x)
  | thread {k : Nat} {s s' s'' : State n κ} : Runs work k s s' → Thread work s' s'' →
      Runs work (k + 1) s s''

/-- The server runs; completions may be queued. -/
def start (queue : List κ) : State n κ := ⟨queue.map some, fun _ => .wait, .serve, []⟩

/-- Reached from there. -/
def Reachable (work : κ → Nat) (s : State n κ) : Prop := ∃ queue k, Runs work k (start queue) s

/-! ## the nulls -/

/-- How many nulls there are in a queue. -/
def nulls (queue : List (Option κ)) : Nat := queue.countP Option.isNone

@[simp] theorem nulls_nil : nulls ([] : List (Option κ)) = 0 := rfl

@[simp] theorem nulls_none (q : List (Option κ)) : nulls (none :: q) = nulls q + 1 :=
  List.countP_cons_of_pos rfl

@[simp] theorem nulls_some (k : κ) (q : List (Option κ)) : nulls (some k :: q) = nulls q :=
  List.countP_cons_of_neg (by simp)

@[simp] theorem nulls_append (q q' : List (Option κ)) : nulls (q ++ q') = nulls q + nulls q' :=
  List.countP_append

/-- How many have been posted. -/
def MainPc.posted (n : Nat) : MainPc → Nat
  | .serve => 0
  | .post i => i
  | .join _ | .close => n

/-- How many workers are out of the loop. -/
def State.left (s : State n κ) : Nat := ∑ i, (s.pc i).isLeft.toNat

/-- Which workers are, where the main thread is. -/
def MainPc.Past (pc : Fin n → Pc) : MainPc → Prop
  | .serve => True
  | .post i => i ≤ n
  | .join i => i ≤ n ∧ ∀ j : Fin n, j.val < i → pc j = .left
  | .close => ∀ j, pc j = .left

/-- Every null is in the queue, or a worker has left for it. -/
structure Inv (s : State n κ) : Prop where
  taken : nulls s.dequeued = s.left
  posted : nulls s.dequeued + nulls s.queue = s.main.posted n
  past : s.main.Past s.pc

variable {work : κ → Nat} {s s' s'' : State n κ} {i : Fin n}

/-- What is counted for the workers, when one goes on. -/
theorem sum_goto (f : Pc → Nat) (s : State n κ) (i : Fin n) (pc : Pc) :
    ∑ j, f ((s.goto i pc).pc j) + f (s.pc i) = ∑ j, f (s.pc j) + f pc := by
  have hsum := Scheduler.sum_add_of_eq (f := fun j => f ((s.goto i pc).pc j))
    (g := fun j => f (s.pc j)) i fun j hj => by
      simp only [State.goto, Function.update_of_ne hj]
  have hnew : (s.goto i pc).pc i = pc := by
    simp only [State.goto, Function.update_self]
  rw [hnew] at hsum
  exact hsum

/-- Who has left stays away. -/
theorem MainPc.Past.goto {main : MainPc} (h : main.Past s.pc) (hi : s.pc i ≠ .left) (pc : Pc) :
    main.Past (s.goto i pc).pc := by
  have hstay : ∀ j, s.pc j = .left → (s.goto i pc).pc j = .left := fun j hj => by
    have hne : j ≠ i := fun heq => hi (heq ▸ hj)
    exact (Function.update_of_ne hne _ _).trans hj
  cases main with
  | serve => trivial
  | post k => exact h
  | join k => exact ⟨h.1, fun j hj => hstay j (h.2 j hj)⟩
  | close => exact fun j => hstay j (h j)

/-- Where a worker goes with what it has taken off the queue. -/
def handling (work : κ → Nat) : Option κ → Pc
  | none => .left
  | some k => .handle (work k)

theorem handling_left (x : Option κ) : (handling work x).isLeft.toNat = nulls [x] := by
  cases x with
  | none => rfl
  | some k => rfl

/-- All that a step of worker `i` can be. -/
inductive Turn (work : κ → Nat) (i : Fin n) (s s' : State n κ) : Prop where
  | take (x : Option κ) (queue : List (Option κ)) : s.pc i = .wait → s.queue = x :: queue →
      s' = { s with queue, dequeued := s.dequeued ++ [x] }.goto i (handling work x) →
      Turn work i s s'
  | handle (left : Nat) : s.pc i = .handle (left + 1) → s' = s.goto i (.handle left) →
      Turn work i s s'
  | done : s.pc i = .handle 0 → s' = s.goto i .wait → Turn work i s s'

theorem WorkerThread.step_cases (hstep : WorkerThread.step work i s = some s') :
    Turn work i s s' := by
  unfold WorkerThread.step at hstep
  cases hpc : s.pc i with
  | wait =>
      cases hq : s.queue with
      | nil => simp [hpc, hq] at hstep
      | cons x queue =>
          cases x with
          | none =>
              simp only [hpc, hq, Option.some.injEq] at hstep
              exact .take none queue hpc hq hstep.symm
          | some k =>
              simp only [hpc, hq, Option.some.injEq] at hstep
              exact .take (some k) queue hpc hq hstep.symm
  | handle left =>
      cases left with
      | zero =>
          simp only [hpc, Option.some.injEq] at hstep
          exact .done hpc hstep.symm
      | succ left =>
          simp only [hpc, Option.some.injEq] at hstep
          exact .handle left hpc hstep.symm
  | left => simp [hpc] at hstep

theorem Inv.worker (h : Inv s) (hstep : WorkerThread.step work i s = some s') : Inv s' := by
  cases WorkerThread.step_cases hstep with
  | take x queue hpc hq heq =>
      have hleft := sum_goto (fun pc => pc.isLeft.toNat) s i (handling work x)
      rw [hpc, handling_left] at hleft
      have hposted := h.posted
      rw [hq] at hposted
      change nulls s.dequeued + nulls ([x] ++ queue) = _ at hposted
      rw [nulls_append, ← Nat.add_assoc] at hposted
      subst heq
      refine ⟨?_, ?_, h.past.goto (by simp [hpc]) _⟩
      · simp only [State.goto, nulls_append, h.taken]
        exact hleft.symm
      · simp only [State.goto, nulls_append]
        exact hposted
  | handle left hpc heq =>
      have hleft := sum_goto (fun pc => pc.isLeft.toNat) s i (.handle left)
      rw [hpc] at hleft
      subst heq
      exact ⟨h.taken.trans hleft.symm, h.posted, h.past.goto (by simp [hpc]) _⟩
  | done hpc heq =>
      have hleft := sum_goto (fun pc => pc.isLeft.toNat) s i .wait
      rw [hpc] at hleft
      subst heq
      exact ⟨h.taken.trans hleft.symm, h.posted, h.past.goto (by simp [hpc]) _⟩

/-- All that a step of the main thread can be. -/
inductive MainTurn (s s' : State n κ) : Prop where
  | serve : s.main = .serve → s' = { s with main := .post 0 } → MainTurn s s'
  | post (i : Nat) : s.main = .post i → i < n →
      s' = { s with queue := s.queue ++ [none], main := .post (i + 1) } → MainTurn s s'
  | posted (i : Nat) : s.main = .post i → n ≤ i → s' = { s with main := .join 0 } → MainTurn s s'
  | join (i : Fin n) : s.main = .join i → s.pc i = .left →
      s' = { s with main := .join (i + 1) } → MainTurn s s'
  | joined (i : Nat) : s.main = .join i → n ≤ i → s' = { s with main := .close } → MainTurn s s'

theorem Main.step_cases (hstep : Main.step s = some s') : MainTurn s s' := by
  unfold Main.step at hstep
  cases hmain : s.main with
  | serve =>
      simp only [hmain, Option.some.injEq] at hstep
      exact .serve hmain hstep.symm
  | post i =>
      simp only [hmain] at hstep
      split_ifs at hstep with hi
      · exact .post i hmain hi (Option.some.inj hstep).symm
      · exact .posted i hmain (Nat.not_lt.mp hi) (Option.some.inj hstep).symm
  | join i =>
      simp only [hmain] at hstep
      split_ifs at hstep with hi hleft
      · exact .join ⟨i, hi⟩ hmain (of_decide_eq_true hleft) (Option.some.inj hstep).symm
      · exact .joined i hmain (Nat.not_lt.mp hi) (Option.some.inj hstep).symm
  | close => simp [hmain] at hstep

theorem Inv.main (h : Inv s) (hstep : Main.step s = some s') : Inv s' := by
  have hposted := h.posted
  have hpast := h.past
  cases Main.step_cases hstep with
  | serve hmain heq =>
      subst heq
      rw [hmain] at hposted
      exact ⟨h.taken, hposted, Nat.zero_le _⟩
  | post i hmain hi heq =>
      subst heq
      rw [hmain] at hposted
      refine ⟨h.taken, ?_, hi⟩
      rw [nulls_append, nulls_none, ← Nat.add_assoc, hposted]
      rfl
  | posted i hmain hi heq =>
      subst heq
      rw [hmain] at hposted hpast
      have hall : i = n := Nat.le_antisymm hpast hi
      exact ⟨h.taken, hposted.trans hall, Nat.zero_le _, fun _ hj => absurd hj (Nat.not_lt_zero _)⟩
  | join i hmain hleft heq =>
      subst heq
      rw [hmain] at hposted hpast
      refine ⟨h.taken, hposted, i.isLt, fun j hj => ?_⟩
      rcases Nat.lt_succ_iff_lt_or_eq.mp hj with hlt | heq
      · exact hpast.2 j hlt
      · rw [Fin.ext heq]
        exact hleft
  | joined i hmain hi heq =>
      subst heq
      rw [hmain] at hposted hpast
      exact ⟨h.taken, hposted, fun j => hpast.2 j (j.isLt.trans_le hi)⟩

/-- **Step lemma.** -/
theorem Inv.step (h : Inv s) (hstep : Thread work s s') : Inv s' := by
  cases hstep with
  | worker i hstep => exact h.worker hstep
  | main hstep => exact h.main hstep

theorem Inv.complete (h : Inv s) (x : κ) : Inv (complete s x) :=
  ⟨h.taken, by rw [Shutdown.complete, nulls_append, nulls_some]; exact h.posted, h.past⟩

theorem inv_start (queue : List κ) : Inv (start queue : State n κ) := by
  refine ⟨?_, ?_, trivial⟩
  · exact (Finset.sum_const_zero).symm
  · induction queue with
    | nil => rfl
    | cons k queue ih => exact ih

theorem Inv.runs (h : Inv s) {k : Nat} (hrun : Runs work k s s') : Inv s' := by
  induction hrun with
  | refl => exact h
  | kernel x _ ih => exact (ih h).complete x
  | thread _ hstep ih => exact (ih h).step hstep

theorem Reachable.inv (h : Reachable work s) : Inv s := by
  obtain ⟨queue, k, hrun⟩ := h
  exact (inv_start queue).runs hrun

/-! ## one thread -/

/-- A step of a worker, or of the main thread. -/
def next (work : κ → Nat) (s : State n κ) : Option (Fin n) → Option (State n κ)
  | some i => WorkerThread.step work i s
  | none => Main.step s

/-- Steps of threads one after the other. -/
def play (work : κ → Nat) : List (Option (Fin n)) → State n κ → Option (State n κ)
  | [], s => some s
  | move :: moves, s => (next work s move).bind (play work moves)

theorem Runs.cons {k : Nat} (hstep : Thread work s s') (h : Runs work k s' s'') :
    Runs work (k + 1) s s'' := by
  induction h with
  | refl => exact .thread (.refl s) hstep
  | kernel x _ ih => exact .kernel x (ih hstep)
  | thread _ hlast ih => exact .thread (ih hstep) hlast

theorem Runs.play {moves : List (Option (Fin n))} (h : play work moves s = some s') :
    Runs work moves.length s s' := by
  induction moves generalizing s with
  | nil =>
      cases h
      exact .refl _
  | cons move moves ih =>
      obtain ⟨s₁, hstep, hrest⟩ := Option.bind_eq_some_iff.mp h
      cases move with
      | some i => exact .cons (.worker i hstep) (ih hrest)
      | none => exact .cons (.main hstep) (ih hrest)

/-- The main thread of two posts its nulls behind two completions. -/
def nullsPosted : State 2 Nat := ⟨[some 1, some 2, none, none], fun _ => .wait, .join 0, []⟩

theorem reachable_nullsPosted : Reachable id nullsPosted :=
  ⟨[1, 2], 4, Runs.play (show play id [none, none, none, none] (start [1, 2]) = some nullsPosted from rfl)⟩

/-- Each worker handles one of them and leaves for a null, and both are joined. -/
theorem runs_closed : ∃ s', Runs id 12 nullsPosted s' ∧ s'.main = .close := by
  let moves : List (Option (Fin 2)) := [some 0, some 1, some 1, some 0, some 0, some 0, some 1,
    some 1, some 1, none, none, none]
  have hsome : (play id moves nullsPosted).isSome := by decide
  obtain ⟨s', hs'⟩ := Option.isSome_iff_exists.mp hsome
  refine ⟨s', Runs.play hs', ?_⟩
  cases hs'
  rfl

/-! ## what is queued is handled -/

/-- All that was queued so far. -/
def State.log (s : State n κ) : List (Option κ) := s.dequeued ++ s.queue

/-- Nothing is queued but at the end. -/
theorem Thread.log (h : Thread work s s') : s.log <+: s'.log := by
  cases h with
  | worker i hstep =>
      cases WorkerThread.step_cases hstep with
      | take x queue _ hq heq =>
          subst heq
          rw [State.log, State.log, hq]
          exact ⟨[], by simp [State.goto]⟩
      | handle _ _ heq =>
          subst heq
          exact List.prefix_rfl
      | done _ heq =>
          subst heq
          exact List.prefix_rfl
  | main hstep =>
      cases Main.step_cases hstep with
      | post _ _ _ heq =>
          subst heq
          exact ⟨[none], List.append_assoc _ _ _⟩
      | serve _ heq | posted _ _ _ heq | join _ _ _ heq | joined _ _ _ heq =>
          subst heq
          exact List.prefix_rfl

theorem Runs.log {k : Nat} (h : Runs work k s s') : s.log <+: s'.log := by
  induction h with
  | refl => exact List.prefix_rfl
  | kernel x _ ih => exact ih.trans ⟨[some x], List.append_assoc _ _ _⟩
  | thread _ hstep ih => exact ih.trans hstep.log

theorem left_eq (h : ∀ i, s.pc i = .left) : s.left = n := by
  have hone : ∀ i, (s.pc i).isLeft.toNat = 1 := fun i => by rw [h i]; rfl
  rw [State.left, Finset.sum_congr rfl fun i _ => hone i, Finset.sum_const, Finset.card_univ,
    Fintype.card_fin, smul_eq_mul, Nat.mul_one]

theorem nulls_le_of_prefix {q q' : List (Option κ)} (h : q <+: q') : nulls q ≤ nulls q' :=
  h.sublist.countP_le

/-- **Drained.**  When `~IocpCore` has joined all threads, whatever was in the queue before a null
once all nulls were posted has been dequeued, and no thread is still dealing with any of it. -/
theorem drained (hs : Reachable work s) (hposted : s.main.posted n = n) {k : Nat}
    (hrun : Runs work k s s') (hclose : s'.main = .close) {front back : List (Option κ)}
    (hqueue : s.queue = front ++ none :: back) :
    s.dequeued ++ front ++ [none] <+: s'.dequeued ∧ ∀ i, s'.pc i = .left := by
  have hinv := hs.inv
  have hinv' := hinv.runs hrun
  have hleft : ∀ i, s'.pc i = .left := by
    have hpast := hinv'.past
    rwa [hclose] at hpast
  have hall : nulls s'.dequeued = n := hinv'.taken.trans (left_eq hleft)
  have htotal : nulls (s.dequeued ++ front) + 1 ≤ n := by
    have h := hinv.posted
    rw [hposted, hqueue, nulls_append, nulls_none] at h
    rw [nulls_append]
    omega
  have htarget : s.dequeued ++ front ++ [none] <+: s'.log := by
    refine List.IsPrefix.trans ⟨back, ?_⟩ hrun.log
    rw [State.log, hqueue]
    simp
  refine ⟨?_, hleft⟩
  rcases List.prefix_or_prefix_of_prefix htarget (List.prefix_append s'.dequeued s'.queue) with
    h | h
  · exact h
  · rcases List.prefix_concat_iff.mp h with heq | hshort
    · rw [heq]
    · -- fewer nulls than there are threads
      have hfew := nulls_le_of_prefix hshort
      omega

theorem drained_two :
    ∃ s' : State 2 Nat, [some 1, some 2, none] <+: s'.dequeued ∧ ∀ i, s'.pc i = .left := by
  obtain ⟨s', hrun, hclose⟩ := runs_closed
  exact ⟨s', drained reachable_nullsPosted rfl hrun hclose
    (show nullsPosted.queue = [some 1, some 2] ++ none :: [none] from rfl)⟩

/-! ## how long it takes -/

/-- What the workers are still to do for the queue, down to its last null. -/
def due (work : κ → Nat) : List (Option κ) → Nat
  | [] => 0
  | none :: queue => 1 + due work queue
  | some k :: queue => if 0 < nulls queue then work k + 2 + due work queue else 0

/-- What a worker is still to do before it waits. -/
def Pc.rest : Pc → Nat
  | .handle m => m + 1
  | .wait | .left => 0

/-- What the main thread is still to do, once it joins. -/
def MainPc.rest (n : Nat) : MainPc → Nat
  | .join i => n - i + 1
  | _ => 0

/-- All of it. -/
def State.remaining (work : κ → Nat) (s : State n κ) : Nat :=
  due work s.queue + ∑ i, (s.pc i).rest + s.main.rest n

/-- The main thread is past its posts. -/
def MainPc.joins : MainPc → Bool
  | .join _ | .close => true
  | _ => false

theorem posted_of_joins {main : MainPc} (h : main.joins = true) : main.posted n = n := by
  cases main with
  | serve => cases h
  | post i => cases h
  | join i => rfl
  | close => rfl

/-- A completion behind the last null is nobody's. -/
theorem due_complete (queue : List (Option κ)) (x : κ) :
    due work (queue ++ [some x]) = due work queue := by
  induction queue with
  | nil => rfl
  | cons y queue ih =>
      cases y with
      | none => rw [List.cons_append, due, due, ih]
      | some k =>
          rw [List.cons_append, due, due, ih, nulls_append, nulls_some, nulls_nil, Nat.add_zero]

/-- A worker that has not left has a null waiting for it. -/
theorem Inv.nulls_pos (h : Inv s) (hjoins : s.main.joins = true) (hi : s.pc i ≠ .left) :
    0 < nulls s.queue := by
  have hlt : s.left < n := by
    have hone : ∀ j, (s.pc j).isLeft.toNat ≤ 1 := fun j => Bool.toNat_le _
    have hzero : (s.pc i).isLeft.toNat < 1 := by simp [Pc.isLeft, hi]
    calc s.left < ∑ _j : Fin n, 1 :=
          Finset.sum_lt_sum (fun j _ => hone j) ⟨i, Finset.mem_univ i, hzero⟩
      _ = n := by simp
  have hposted := h.posted
  rw [posted_of_joins hjoins, h.taken] at hposted
  omega

/-- A worker that goes on, with less to do for the queue and for itself. -/
theorem remaining_goto (s₁ s : State n κ) (i : Fin n) (hpc : s₁.pc = s.pc)
    (hmain : s₁.main = s.main) (pc : Pc)
    (hless : due work s₁.queue + pc.rest < due work s.queue + (s.pc i).rest) :
    (s₁.goto i pc).remaining work < s.remaining work := by
  have hsum := sum_goto Pc.rest s₁ i pc
  rw [hpc] at hsum
  change due work s₁.queue + ∑ j, ((s₁.goto i pc).pc j).rest + s₁.main.rest n < _
  rw [hmain, State.remaining]
  omega

/-- What is taken off the queue leaves less to do there than the worker then has. -/
theorem due_handling {x : Option κ} {queue : List (Option κ)} (h : 0 < nulls (x :: queue)) :
    due work queue + (handling work x).rest < due work (x :: queue) := by
  cases x with
  | none =>
      rw [due, handling, Pc.rest]
      omega
  | some k =>
      rw [nulls_some] at h
      rw [due, if_pos h, handling, Pc.rest]
      omega

/-- A step of a worker. -/
theorem Inv.worker_remaining (h : Inv s) (hjoins : s.main.joins = true)
    (hstep : WorkerThread.step work i s = some s') :
    s'.main = s.main ∧ s'.remaining work < s.remaining work := by
  cases WorkerThread.step_cases hstep with
  | take x queue hpc hq heq =>
      have hpos := h.nulls_pos hjoins (i := i) (by simp [hpc])
      rw [hq] at hpos
      subst heq
      refine ⟨rfl, ?_⟩
      refine remaining_goto { s with queue, dequeued := s.dequeued ++ [x] } s i rfl rfl _ ?_
      rw [hq, hpc]
      exact due_handling hpos
  | handle left hpc heq =>
      subst heq
      refine ⟨rfl, remaining_goto s s i rfl rfl _ ?_⟩
      rw [hpc, Pc.rest, Pc.rest]
      omega
  | done hpc heq =>
      subst heq
      refine ⟨rfl, remaining_goto s s i rfl rfl _ ?_⟩
      rw [hpc, Pc.rest, Pc.rest]
      omega

/-- A step of the main thread. -/
theorem Main.step_remaining (hjoins : s.main.joins = true) (hstep : Main.step s = some s') :
    s'.main.joins = true ∧ s'.remaining work < s.remaining work := by
  cases Main.step_cases hstep with
  | serve hmain => simp [hmain, MainPc.joins] at hjoins
  | post i hmain => simp [hmain, MainPc.joins] at hjoins
  | posted i hmain => simp [hmain, MainPc.joins] at hjoins
  | join i hmain _ heq =>
      subst heq
      refine ⟨rfl, ?_⟩
      have hlt := i.isLt
      simp only [State.remaining, hmain, MainPc.rest]
      omega
  | joined i hmain _ heq =>
      subst heq
      refine ⟨rfl, ?_⟩
      simp only [State.remaining, hmain, MainPc.rest]
      omega

/-- **Step lemma**: every step of a thread leaves less to do. -/
theorem Inv.thread_remaining (h : Inv s) (hjoins : s.main.joins = true) (hstep : Thread work s s') :
    s'.main.joins = true ∧ s'.remaining work < s.remaining work := by
  cases hstep with
  | worker i hstep =>
      obtain ⟨hmain, hless⟩ := h.worker_remaining hjoins hstep
      exact ⟨hmain ▸ hjoins, hless⟩
  | main hstep => exact Main.step_remaining hjoins hstep

theorem Inv.runs_remaining (h : Inv s) (hjoins : s.main.joins = true) {k : Nat}
    (hrun : Runs work k s s') :
    s'.main.joins = true ∧ k + s'.remaining work ≤ s.remaining work := by
  induction hrun with
  | refl => exact ⟨hjoins, (Nat.zero_add _).le⟩
  | kernel x _ ih =>
      obtain ⟨hj, hle⟩ := ih h hjoins
      refine ⟨hj, ?_⟩
      rw [State.remaining, Shutdown.complete, due_complete]
      exact hle
  | thread hrun hstep ih =>
      obtain ⟨hj, hle⟩ := ih h hjoins
      obtain ⟨hj', hless⟩ := (h.runs hrun).thread_remaining hj hstep
      exact ⟨hj', by omega⟩

/-- A worker that has not left can go on. -/
theorem Inv.worker_goes_on (h : Inv s) (hjoins : s.main.joins = true) (hi : s.pc i ≠ .left) :
    ∃ s', WorkerThread.step work i s = some s' := by
  unfold WorkerThread.step
  cases hpc : s.pc i with
  | wait =>
      have hpos := h.nulls_pos hjoins hi
      cases hq : s.queue with
      | nil =>
          rw [hq] at hpos
          exact absurd hpos (Nat.lt_irrefl 0)
      | cons x queue =>
          cases x with
          | none => exact ⟨_, rfl⟩
          | some k => exact ⟨_, rfl⟩
  | handle m =>
      cases m with
      | zero => exact ⟨_, rfl⟩
      | succ m => exact ⟨_, rfl⟩
  | left => exact absurd hpc hi

/-- Nobody waits for ever. -/
theorem Inv.goes_on (h : Inv s) (hjoins : s.main.joins = true) :
    s.main = .close ∨ ∃ s', Thread work s s' := by
  cases hmain : s.main with
  | serve => simp [hmain, MainPc.joins] at hjoins
  | post i => simp [hmain, MainPc.joins] at hjoins
  | close => exact .inl rfl
  | join i =>
      right
      by_cases hi : i < n
      · by_cases hleft : s.pc ⟨i, hi⟩ = .left
        · refine ⟨{ s with main := .join (i + 1) }, .main ?_⟩
          simp [Main.step, hmain, hi, Pc.isLeft, hleft]
        · obtain ⟨s', hstep⟩ := h.worker_goes_on hjoins hleft
          exact ⟨s', .worker _ hstep⟩
      · refine ⟨{ s with main := .close }, .main ?_⟩
        simp [Main.step, hmain, hi]

/-- **The server shuts down.**  Once all nulls are posted, whatever completes and in whatever order
the threads go on, they have at most so many steps left, and until all threads are joined there is
one that can be taken. -/
theorem shuts_down (hs : Reachable work s) (hjoin : s.main = .join 0) {k : Nat}
    (hrun : Runs work k s s') :
    k + s'.remaining work ≤ s.remaining work ∧
      (s'.main = .close ∨ ∃ s'', Thread work s' s'') := by
  have hjoins : s.main.joins = true := by rw [hjoin]; rfl
  obtain ⟨hj, hle⟩ := hs.inv.runs_remaining hjoins hrun
  exact ⟨hle, (hs.inv.runs hrun).goes_on hj⟩

theorem shuts_down_two : ∃ s' : State 2 Nat, 12 + s'.remaining id ≤ nullsPosted.remaining id ∧
    (s'.main = .close ∨ ∃ s'', Thread id s' s'') := by
  obtain ⟨s', hrun, -⟩ := runs_closed
  exact ⟨s', shuts_down reachable_nullsPosted rfl hrun⟩

end Shutdown

end ServerStudy
