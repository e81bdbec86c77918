import ServerStudy.Scheduler.Conserve

/-!
# ServerStudy.WorkStealing

The stand-alone benchmark `Scheduler/WorkStealing.cpp`: every worker has a ring
that it fills and empties at the tail, and that others steal from at the head.
`push` does not look whether there is room.

`Worker.step` is a worker, one locked section after the other, with a program
counter; whom a draw picks is left free.  The set of queues is fixed, as it is
once `RunTasks` has started the workers.

* `Inv.step` — every section of every worker keeps the tasks there are, and finds
  room for what it pushes;
* `tasks_conserved` — so does every run;
* `head_wraps` — `head` and `tail` count up for ever, and wrap one after the other.
-/

namespace ServerStudy

namespace WorkStealing

variable {n : Nat} {τ : Type}

/-! ## data -/

/-- `WorkerQueue::CAPACITY`. -/
def CAPACITY : Nat := 1024

instance : NeZero CAPACITY := ⟨by decide⟩

/-- `WorkerQueue`: `tasks`, `head` and `tail`; `push` is `Ring.push`. -/
abbrev WorkerQueue (τ : Type) := Ring CAPACITY τ

/-- `WorkerQueue::try_pop`. -/
def tryPop (q : WorkerQueue τ) : Option (τ × WorkerQueue τ) :=
  if q.head = q.tail then none else some (q.pop.next, q.pop)

/-- `WorkerQueue::try_steal`. -/
def trySteal (q : WorkerQueue τ) : Option (τ × WorkerQueue τ) :=
  if q.head = q.tail then none else some (q.front, q.shift)

/-- Where a worker is: what it does next. -/
inductive Pc (τ : Type) where
  | tryPop
  /-- `task()` -/
  | execute (task : τ)
  /-- `g_pending_tasks.fetch_sub(1)` -/
  | report
  /-- turn `i` of the loop of `Steal` -/
  | steal (i : Nat)
  /-- `Steal`: push what was stolen -/
  | push (task : τ)
  /-- `Try_pop_global`: lock `g_m` and compute `cnt` -/
  | tryPopGlobal
  /-- turn `i` of the loop of `Try_pop_global` -/
  | refill (i cnt : Nat)
  /-- `if (g_stop) break` -/
  | stop
  /-- out of the loop -/
  | left
  deriving DecidableEq

/-- The globals, and the workers.  `g_m` is its owner; the last task of
`g_global_queue` is at its back.  `executed` and `steals` are history: the tasks
executed, and how often a queue was stolen from. -/
structure State (n : Nat) (τ : Type) where
  g_global_queue : List τ
  g_local_queues : Fin n → WorkerQueue τ
  g_m : Option (Fin n)
  g_pending_tasks : Int
  g_stop : Bool
  pc : Fin n → Pc τ
  executed : List τ
  steals : Fin n → Nat

namespace State

/-- Worker `i` goes on to `pc`. -/
def goto (s : State n τ) (i : Fin n) (pc : Pc τ) : State n τ :=
  { s with pc := Function.update s.pc i pc }

/-- Queue `v` is `q`, and worker `i` goes on to `pc`. -/
def put (s : State n τ) (v : Fin n) (q : WorkerQueue τ) (i : Fin n) (pc : Pc τ) : State n τ :=
  { s with
    g_local_queues := Function.update s.g_local_queues v q
    pc := Function.update s.pc i pc }

end State

/-! ## threads -/

/-- The next section of `Worker(i)`, unless it has to wait or is out of the loop;
`victim_id` is what `dis(gen)` draws. -/
def Worker.step (i victim_id : Fin n) (s : State n τ) : Option (State n τ) :=
  let my_q := s.g_local_queues i
  match s.pc i with
  | .tryPop =>
    match tryPop my_q with
    | some (task, q) => some (s.put i q i (.execute task))
    | none => some (s.goto i (.steal 0))
  | .execute task => some ({ s with executed := s.executed ++ [task] }.goto i .report)
  | .report => some ({ s with g_pending_tasks := (s.g_pending_tasks - 1).bmod (2 ^ 32) }.goto i .tryPop)
  | .steal k =>
    if k < n then
      if victim_id = i then some (s.goto i (.steal (k + 1)))
      else match trySteal (s.g_local_queues victim_id) with
        | some (task, q) =>
          some ({ s with steals := Function.update s.steals victim_id (s.steals victim_id + 1) }.put
            victim_id q i (.push task))
        | none => some (s.goto i (.steal (k + 1)))
    else some (s.goto i .tryPopGlobal)
  | .push task => some (s.put i (my_q.push task) i .tryPop)
  | .tryPopGlobal =>
    if s.g_m.isSome then none
    else
      let cnt := min s.g_global_queue.length (CAPACITY / 2)
      if cnt = 0 then some (s.goto i .stop)
      else some ({ s with g_m := some i }.goto i (.refill 0 cnt))
  | .refill k cnt =>
    if k < cnt then
      match s.g_global_queue.getLast? with
      -- nobody else sees the queue between the push and `pop_back`
      | some task =>
        some ({ s with g_global_queue := s.g_global_queue.dropLast }.put i (my_q.push task) i
          (.refill (k + 1) cnt))
      | none => some ({ s with g_m := none }.goto i .tryPop)
    else some ({ s with g_m := none }.goto i .tryPop)
  | .stop => some (s.goto i (if s.g_stop then .left else .tryPop))
  | .left => none

/-- A step of any worker, or of the main thread, which waits for the last task. -/
inductive Step (s s' : State n τ) : Prop where
  | worker (i victim_id : Fin n) : Worker.step i victim_id s = some s' → Step s s'
  | main : s.g_pending_tasks = 0 → s' = { s with g_stop := true } → Step s s'

/-- Where a worker may be as long as there has been no task. -/
def Pc.idle : Pc τ → Bool
  | .tryPop | .steal _ | .tryPopGlobal | .stop => true
  | _ => false

/-- As the main thread lets go of `g_m`: the tasks in the global queue, and nothing
anywhere else.  The workers are running. -/
structure Started (tasks : List τ) (s : State n τ) : Prop where
  g_global_queue : s.g_global_queue = tasks
  queues : ∀ i, (s.g_local_queues i).head = 0 ∧ (s.g_local_queues i).tail = 0
  g_m : s.g_m = none
  g_pending_tasks : s.g_pending_tasks = (tasks.length : Int).bmod (2 ^ 32)
  g_stop : s.g_stop = false
  pc : ∀ i, (s.pc i).idle = true
  executed : s.executed = []
  steals : ∀ i, s.steals i = 0

/-- Such a state; what is in the arrays does not matter. -/
def start (tasks : List τ) (uninitialised : τ) : State n τ where
  g_global_queue := tasks
  g_local_queues _ := ⟨fun _ => uninitialised, 0, 0⟩
  g_m := none
  g_pending_tasks := (tasks.length : Int).bmod (2 ^ 32)
  g_stop := false
  pc _ := .tryPop
  executed := []
  steals _ := 0

theorem started_start (tasks : List τ) (uninitialised : τ) :
    Started tasks (start tasks uninitialised : State n τ) := by
  refine ⟨rfl, fun _ => ⟨rfl, rfl⟩, rfl, ?_, rfl, fun _ => rfl, rfl, fun _ => rfl⟩
  rw [start]

/-- Reached from such a state by steps of any threads, in any order. -/
inductive Reachable (tasks : List τ) : State n τ → Prop where
  | start {s : State n τ} : Started tasks s → Reachable tasks s
  | step {s s' : State n τ} : Reachable tasks s → Step s s' → Reachable tasks s'

/-! ## one queue -/

section Queue

variable {q q' : WorkerQueue τ} {l : List τ} {task : τ}

theorem dvd_CAPACITY : CAPACITY ∣ 2 ^ 64 := by decide

theorem CAPACITY_lt : CAPACITY < 2 ^ 64 := by decide

/-- A queue is empty when its counters meet. -/
theorem holds_head_eq_tail (hq : q.Holds l) : q.head = q.tail ↔ l = [] := by
  have hlt := hq.head_lt
  have hfits := hq.fits
  have hc := CAPACITY_lt
  rw [hq.tail_eq, ← List.length_eq_zero_iff]
  simp only [add64]
  omega

/-- `try_pop` takes the last. -/
theorem tryPop_eq (hq : q.Holds l) (h : tryPop q = some (task, q')) :
    ∃ l', l = l' ++ [task] ∧ q'.Holds l' ∧ q'.head = q.head := by
  unfold tryPop at h
  split_ifs at h with hempty
  rw [holds_head_eq_tail hq] at hempty
  obtain ⟨l', a, rfl⟩ := (List.eq_nil_or_concat' l).resolve_left hempty
  have hpop := hq.pop dvd_CAPACITY
  rw [hpop.2] at h
  cases h
  exact ⟨l', rfl, hpop.1, by rw [Ring.pop]⟩

theorem tryPop_none (hq : q.Holds l) (h : tryPop q = none) : l = [] := by
  unfold tryPop at h
  split_ifs at h with hempty
  exact (holds_head_eq_tail hq).mp hempty

/-- `try_steal` takes the first. -/
theorem trySteal_eq (hq : q.Holds l) (h : trySteal q = some (task, q')) :
    ∃ l', l = task :: l' ∧ q'.Holds l' ∧ q'.head = add64 q.head 1 := by
  unfold trySteal at h
  split_ifs at h with hempty
  rw [holds_head_eq_tail hq] at hempty
  cases l with
  | nil => exact absurd rfl hempty
  | cons a l =>
      have hfront := hq.front_eq
      have hshift := hq.shift dvd_CAPACITY
      cases h
      exact ⟨l, by rw [hfront], hshift, by rw [Ring.shift]⟩

end Queue

/-! ## the tasks there are -/

/-- The task a worker is executing, or has stolen and not pushed yet. -/
def Pc.held : Pc τ → Multiset τ
  | .execute task | .push task => {task}
  | _ => 0

theorem Pc.held_of_idle {pc : Pc τ} (h : pc.idle = true) : pc.held = 0 := by
  cases pc with
  | execute task => cases h
  | push task => cases h
  | _ => rfl

/-- The tasks in the global queue, in all local queues, with the workers and
executed. -/
def State.tasks (s : State n τ) : Multiset τ :=
  ↑s.g_global_queue + ∑ i, ((s.g_local_queues i).list : Multiset τ) + ∑ i, (s.pc i).held +
    ↑s.executed

/-- How many tasks a worker's queue may hold: the worker looks for tasks when it
has found none, and nobody else pushes. -/
def Pc.limit : Pc τ → Nat
  | .steal _ | .push _ | .tryPopGlobal => 0
  | .refill k _ => k
  | _ => CAPACITY / 2

/-- A worker with this queue may be at `pc`. -/
structure Fits (q : WorkerQueue τ) (pc : Pc τ) : Prop where
  holds : ∃ l, q.Holds l ∧ l.length ≤ pc.limit
  refill : ∀ k cnt, pc = .refill k cnt → k ≤ cnt ∧ cnt ≤ CAPACITY / 2

/-- Every worker is where it may be, and the tasks are those of the start. -/
structure Inv (tasks : List τ) (s : State n τ) : Prop where
  fits : ∀ i, Fits (s.g_local_queues i) (s.pc i)
  head : ∀ i, (s.g_local_queues i).head = s.steals i % 2 ^ 64
  tasks : s.tasks = tasks

variable {tasks : List τ} {s s' : State n τ} {i v : Fin n} {q : WorkerQueue τ} {pc : Pc τ}

theorem Fits.inQueue (h : Fits q pc) : q.Holds q.list ∧ q.list.length ≤ pc.limit := by
  obtain ⟨l, hl, hle⟩ := h.holds
  rw [hl.list_eq CAPACITY_lt]
  exact ⟨hl, hle⟩

/-- One queue, one worker and the ends change, and together they hold the same. -/
theorem tasks_put {g e : List τ}
    (hglobal : s'.g_global_queue = g) (hqueues : s'.g_local_queues = Function.update s.g_local_queues v q)
    (hpc : s'.pc = Function.update s.pc i pc) (hexecuted : s'.executed = e)
    (hheld : (g : Multiset τ) + ↑q.list + pc.held + ↑e =
      ↑s.g_global_queue + ↑(s.g_local_queues v).list + (s.pc i).held + ↑s.executed) :
    s'.tasks = s.tasks := by
  have hlists := Scheduler.sum_add_of_eq (f := fun j => ((s'.g_local_queues j).list : Multiset τ))
    (g := fun j => ((s.g_local_queues j).list : Multiset τ)) v fun j hj => by
      rw [hqueues, Function.update_of_ne hj]
  have hhelds := Scheduler.sum_add_of_eq (f := fun j => (s'.pc j).held)
    (g := fun j => (s.pc j).held) i fun j hj => by
      rw [hpc, Function.update_of_ne hj]
  simp only [hqueues, hpc, Function.update_self] at hlists hhelds
  rw [← hqueues] at hlists
  rw [← hpc] at hhelds
  refine add_right_cancel (b := ↑(s.g_local_queues v).list + (s.pc i).held) ?_
  rw [State.tasks, State.tasks, hglobal, hexecuted]
  calc _ = ↑g + ↑e + (∑ j, ((s'.g_local_queues j).list : Multiset τ) + ↑(s.g_local_queues v).list) +
        (∑ j, (s'.pc j).held + (s.pc i).held) := by ac_rfl
    _ = (↑g + ↑q.list + pc.held + ↑e) +
        (∑ j, ((s.g_local_queues j).list : Multiset τ) + ∑ j, (s.pc j).held) := by
      rw [hlists, hhelds]
      ac_rfl
    _ = _ := by
      rw [hheld]
      ac_rfl

/-! ## a step -/

/-- A worker goes on, with a queue that may be there, and holds what it held. -/
theorem Inv.put (h : Inv tasks s) (pc : Pc τ) (hfits : Fits q pc)
    (hqueues : s'.g_local_queues = Function.update s.g_local_queues i q)
    (hpc : s'.pc = Function.update s.pc i pc) (hsteals : s'.steals = s.steals)
    (hhead : q.head = (s.g_local_queues i).head)
    (hheld : (s'.g_global_queue : Multiset τ) + ↑q.list + pc.held + ↑s'.executed =
      ↑s.g_global_queue + ↑(s.g_local_queues i).list + (s.pc i).held + ↑s.executed) :
    Inv tasks s' := by
  refine ⟨fun j => ?_, fun j => ?_, (tasks_put rfl hqueues hpc rfl hheld).trans h.tasks⟩
  · rw [hqueues, hpc]
    by_cases hj : j = i
    · subst hj
      rw [Function.update_self, Function.update_self]
      exact hfits
    · rw [Function.update_of_ne hj, Function.update_of_ne hj]
      exact h.fits j
  · rw [hqueues, hsteals]
    by_cases hj : j = i
    · subst hj
      rw [Function.update_self, hhead]
      exact h.head j
    · rw [Function.update_of_ne hj]
      exact h.head j

/-- A worker goes on and no queue changes. -/
theorem Inv.goto (h : Inv tasks s) (pc : Pc τ) (hfits : Fits (s.g_local_queues i) pc)
    (hqueues : s'.g_local_queues = s.g_local_queues) (hpc : s'.pc = Function.update s.pc i pc)
    (hsteals : s'.steals = s.steals) (hglobal : s'.g_global_queue = s.g_global_queue)
    (hheld : (pc.held : Multiset τ) + ↑s'.executed = (s.pc i).held + ↑s.executed) :
    Inv tasks s' := by
  refine h.put pc hfits (by rw [hqueues, Function.update_eq_self]) hpc hsteals rfl ?_
  rw [hglobal, add_assoc, hheld, ← add_assoc]

/-- At a place with more room, which is not the loop of `Try_pop_global`. -/
theorem Fits.elsewhere (h : Fits q pc) (pc' : Pc τ) (hlimit : pc.limit ≤ pc'.limit)
    (hrefill : ∀ k cnt, pc' ≠ .refill k cnt) : Fits q pc' := by
  obtain ⟨l, hl, hle⟩ := h.holds
  exact ⟨⟨l, hl, hle.trans hlimit⟩, fun k cnt hk => absurd hk (hrefill k cnt)⟩

/-- A push at a place where there is room. -/
theorem Fits.push (h : Fits q pc) (pc' : Pc τ) (task : τ) (hroom : pc.limit + 1 ≤ pc'.limit)
    (hlt : pc.limit < CAPACITY)
    (hrefill : ∀ k cnt, pc' = .refill k cnt → k ≤ cnt ∧ cnt ≤ CAPACITY / 2) :
    Fits (q.push task) pc' ∧ (q.push task).list = q.list ++ [task] := by
  obtain ⟨hq, hle⟩ := h.inQueue
  have hpush := hq.push (a := task) dvd_CAPACITY (by omega)
  have hlen : (q.list ++ [task]).length ≤ pc'.limit := by
    rw [List.length_append, List.length_singleton]
    omega
  exact ⟨⟨⟨_, hpush, hlen⟩, hrefill⟩, hpush.list_eq CAPACITY_lt⟩

theorem push_head (q : WorkerQueue τ) (task : τ) : (q.push task).head = q.head := by rw [Ring.push]

/-- A worker pops from its own queue. -/
theorem Inv.tryPop (h : Inv tasks s) (hpc : s.pc i = .tryPop)
    (hstep : (match WorkStealing.tryPop (s.g_local_queues i) with
      | some (task, q) => some (s.put i q i (.execute task))
      | none => some (s.goto i (.steal 0))) = some s') : Inv tasks s' := by
  have hf := h.fits i
  obtain ⟨hq, hle⟩ := hf.inQueue
  rw [hpc] at hle
  cases hpop : WorkStealing.tryPop (s.g_local_queues i) with
  | none =>
      rw [hpop] at hstep
      cases hstep
      have hnil := tryPop_none hq hpop
      refine h.goto (.steal 0) ⟨⟨[], hnil ▸ hq, Nat.le_refl _⟩, fun k cnt hk => ?_⟩ rfl rfl rfl rfl ?_
      · cases hk
      · rw [hpc, State.goto]
        rfl
  | some r =>
      obtain ⟨task, q⟩ := r
      rw [hpop] at hstep
      cases hstep
      obtain ⟨l', hlist, hq', hhead⟩ := tryPop_eq hq hpop
      have hlen : l'.length ≤ (Pc.execute task).limit := by
        rw [hlist, List.length_append, List.length_singleton] at hle
        exact Nat.le_of_succ_le hle
      refine h.put (.execute task) ⟨⟨l', hq', hlen⟩, fun k cnt hk => ?_⟩ rfl rfl rfl hhead ?_
      · cases hk
      · rw [hq'.list_eq CAPACITY_lt, hlist, hpc, ← Multiset.coe_add]
        simp only [Pc.held, State.put, Multiset.coe_singleton, add_zero]
        ac_rfl

/-- A queue that was stolen from may still be where it was. -/
theorem Fits.robbed {l : List τ} {task : τ} {q' : WorkerQueue τ} (h : Fits q pc)
    (hlist : q.list = task :: l) (hq' : q'.Holds l) : Fits q' pc := by
  obtain ⟨-, hle⟩ := h.inQueue
  rw [hlist, List.length_cons] at hle
  exact ⟨⟨l, hq', Nat.le_of_succ_le hle⟩, h.refill⟩

/-- A worker steals from another queue. -/
theorem Inv.steal (h : Inv tasks s) {k : Nat} (hpc : s.pc i = .steal k) (hv : v ≠ i) {task : τ}
    (hsteal : trySteal (s.g_local_queues v) = some (task, q)) :
    Inv tasks ({ s with steals := Function.update s.steals v (s.steals v + 1) }.put v q i
      (.push task)) := by
  obtain ⟨hqv, -⟩ := (h.fits v).inQueue
  obtain ⟨l', hlist, hq', hhead⟩ := trySteal_eq hqv hsteal
  have hown := (h.fits i).elsewhere (.push task) (by rw [hpc]; exact Nat.le_refl _)
    fun _ _ hk => by cases hk
  refine ⟨fun j => ?_, fun j => ?_, (tasks_put rfl rfl rfl rfl ?_).trans h.tasks⟩
  · simp only [State.put]
    by_cases hjv : j = v
    · subst hjv
      rw [Function.update_self, Function.update_of_ne hv]
      exact (h.fits j).robbed hlist hq'
    · rw [Function.update_of_ne hjv]
      by_cases hji : j = i
      · subst hji
        rw [Function.update_self]
        exact hown
      · rw [Function.update_of_ne hji]
        exact h.fits j
  · simp only [State.put]
    by_cases hjv : j = v
    · subst hjv
      rw [Function.update_self, Function.update_self, hhead, h.head j, add64, Nat.mod_add_mod]
    · rw [Function.update_of_ne hjv, Function.update_of_ne hjv]
      exact h.head j
  · rw [hq'.list_eq CAPACITY_lt, hlist, hpc, ← Multiset.cons_coe, ← Multiset.singleton_add]
    simp only [Pc.held, add_zero]
    ac_rfl

/-- A worker pushes what it has stolen. -/
theorem Inv.pushStolen (h : Inv tasks s) {task : τ} (hpc : s.pc i = .push task) :
    Inv tasks (s.put i ((s.g_local_queues i).push task) i .tryPop) := by
  have hf := h.fits i
  rw [hpc] at hf
  obtain ⟨hfits, hlist⟩ := hf.push .tryPop task (by simp [Pc.limit, CAPACITY])
    (by simp [Pc.limit, CAPACITY]) fun _ _ hk => by cases hk
  refine h.put .tryPop hfits rfl rfl rfl (push_head _ _) ?_
  rw [hlist, hpc, ← Multiset.coe_add]
  simp only [Pc.held, State.put, Multiset.coe_singleton, add_zero]
  ac_rfl

/-- A worker pushes the last task of the global queue. -/
theorem Inv.refill (h : Inv tasks s) {k cnt : Nat} (hpc : s.pc i = .refill k cnt) (hk : k < cnt)
    {task : τ} (hlast : s.g_global_queue.getLast? = some task) :
    Inv tasks ({ s with g_global_queue := s.g_global_queue.dropLast }.put i
      ((s.g_local_queues i).push task) i (.refill (k + 1) cnt)) := by
  have hf := h.fits i
  have hcnt := (hf.refill k cnt hpc).2
  rw [hpc] at hf
  have hhalf : CAPACITY / 2 < CAPACITY := by decide
  obtain ⟨hfits, hlist⟩ := hf.push (.refill (k + 1) cnt) task (Nat.le_refl _)
    (by simp only [Pc.limit]; omega) fun k' cnt' heq => by
      cases heq
      exact ⟨hk, hcnt⟩
  refine h.put (.refill (k + 1) cnt) hfits rfl rfl rfl (push_head _ _) ?_
  have hglobal : s.g_global_queue = s.g_global_queue.dropLast ++ [task] :=
    (List.dropLast_append_getLast? task hlast).symm
  rw [hlist, hpc, ← Multiset.coe_add]
  conv_rhs => rw [hglobal, ← Multiset.coe_add]
  simp only [Pc.held, State.put, Multiset.coe_singleton, add_zero]
  ac_rfl

/-- **Step lemma**: every section of every worker. -/
theorem Inv.worker (h : Inv tasks s) {victim_id : Fin n}
    (hstep : Worker.step i victim_id s = some s') : Inv tasks s' := by
  have hf := h.fits i
  unfold Worker.step at hstep
  cases hpc : s.pc i <;> simp only [hpc] at hstep hf
  case tryPop => exact h.tryPop hpc hstep
  case execute task =>
    cases hstep
    refine h.goto .report (hf.elsewhere _ (Nat.le_refl _) fun _ _ hk => by cases hk) rfl rfl rfl rfl ?_
    rw [hpc]
    simp only [Pc.held, State.goto, ← Multiset.coe_add, Multiset.coe_singleton, zero_add]
    rw [add_comm]
  case report =>
    cases hstep
    refine h.goto .tryPop (hf.elsewhere _ (Nat.le_refl _) fun _ _ hk => by cases hk) rfl rfl rfl rfl ?_
    rw [hpc]
    rfl
  case steal k =>
    split_ifs at hstep with hk hv
    · cases hstep
      refine h.goto (.steal (k + 1)) (hf.elsewhere _ (Nat.le_refl _) fun _ _ hk => by cases hk)
        rfl rfl rfl rfl ?_
      rw [hpc]
      rfl
    · cases hsteal : trySteal (s.g_local_queues victim_id) with
      | none =>
          rw [hsteal] at hstep
          cases hstep
          refine h.goto (.steal (k + 1)) (hf.elsewhere _ (Nat.le_refl _) fun _ _ hk => by cases hk)
            rfl rfl rfl rfl ?_
          rw [hpc]
          rfl
      | some r =>
          rw [hsteal] at hstep
          cases hstep
          exact h.steal hpc hv hsteal
    · cases hstep
      refine h.goto .tryPopGlobal (hf.elsewhere _ (Nat.le_refl _) fun _ _ hk => by cases hk)
        rfl rfl rfl rfl ?_
      rw [hpc]
      rfl
  case push task =>
    cases hstep
    exact h.pushStolen hpc
  case tryPopGlobal =>
    split_ifs at hstep with hm hcnt
    · cases hstep
      refine h.goto .stop (hf.elsewhere _ (Nat.zero_le _) fun _ _ hk => by cases hk) rfl rfl rfl rfl ?_
      rw [hpc]
      rfl
    · cases hstep
      refine h.goto (.refill 0 _) ⟨hf.holds, fun k cnt heq => ?_⟩ rfl rfl rfl rfl ?_
      · cases heq
        exact ⟨Nat.zero_le _, Nat.min_le_right _ _⟩
      · rw [hpc]
        rfl
  case refill k cnt =>
    have hcnt := hf.refill k cnt rfl
    have hback : Fits (s.g_local_queues i) .tryPop :=
      hf.elsewhere _ (hcnt.1.trans hcnt.2) fun _ _ hk => by cases hk
    split_ifs at hstep with hk
    · cases hlast : s.g_global_queue.getLast? with
      | none =>
          rw [hlast] at hstep
          cases hstep
          refine h.goto .tryPop hback rfl rfl rfl rfl ?_
          rw [hpc]
          rfl
      | some task =>
          rw [hlast] at hstep
          cases hstep
          exact h.refill hpc hk hlast
    · cases hstep
      refine h.goto .tryPop hback rfl rfl rfl rfl ?_
      rw [hpc]
      rfl
  case stop =>
    cases hstep
    cases s.g_stop with
    | false =>
        refine h.goto .tryPop (hf.elsewhere _ (Nat.le_refl _) fun _ _ hk => by cases hk) rfl rfl rfl rfl ?_
        rw [hpc]
        rfl
    | true =>
        refine h.goto .left (hf.elsewhere _ (Nat.le_refl _) fun _ _ hk => by cases hk) rfl rfl rfl rfl ?_
        rw [hpc]
        rfl
  case left => cases hstep

/-- The main thread takes no task. -/
theorem Inv.main (h : Inv tasks s) : Inv tasks { s with g_stop := true } :=
  ⟨h.fits, h.head, h.tasks⟩

theorem Inv.step (h : Inv tasks s) (hstep : Step s s') : Inv tasks s' := by
  cases hstep with
  | worker i victim_id hstep => exact h.worker hstep
  | main _ hs' =>
      rw [hs']
      exact h.main

/-! ## a run -/

theorem Started.inv (h : Started tasks s) : Inv tasks s := by
  have hempty : ∀ i, (s.g_local_queues i).Holds [] := fun i => by
    obtain ⟨hhead, htail⟩ := h.queues i
    refine Ring.holds_nil (hhead.trans htail.symm) ?_
    rw [hhead]
    exact Nat.two_pow_pos 64
  refine ⟨fun i => ?_, fun i => ?_, ?_⟩
  · refine ⟨⟨[], hempty i, Nat.zero_le _⟩, fun k cnt hk => ?_⟩
    have hpc := h.pc i
    rw [hk] at hpc
    cases hpc
  · rw [(h.queues i).1, h.steals i, Nat.zero_mod]
  · have hlists : ∀ i, ((s.g_local_queues i).list : Multiset τ) = 0 := fun i => by
      rw [(hempty i).list_eq CAPACITY_lt]
      rfl
    have hheld : ∀ i, (s.pc i).held = 0 := fun i => Pc.held_of_idle (h.pc i)
    rw [State.tasks, h.g_global_queue, h.executed]
    simp only [hlists, hheld, Finset.sum_const_zero, add_zero]
    exact add_zero _

theorem Reachable.inv (h : Reachable tasks s) : Inv tasks s := by
  induction h with
  | start hs => exact hs.inv
  | step _ hstep ih => exact ih.step hstep

/-- Sections of workers one after the other: who, and the victim drawn. -/
def run (s : State n τ) : List (Fin n × Fin n) → Option (State n τ)
  | [] => some s
  | (i, victim_id) :: l => (Worker.step i victim_id s).bind fun s' => run s' l

theorem Reachable.run (h : Reachable tasks s) {l : List (Fin n × Fin n)}
    (hrun : WorkStealing.run s l = some s') : Reachable tasks s' := by
  induction l generalizing s with
  | nil =>
      cases hrun
      exact h
  | cons m l ih =>
      obtain ⟨i, victim_id⟩ := m
      rw [WorkStealing.run] at hrun
      cases hstep : Worker.step i victim_id s with
      | none =>
          rw [hstep] at hrun
          cases hrun
      | some s₁ =>
          rw [hstep] at hrun
          exact ih (h.step (.worker i victim_id hstep)) hrun

/-- A worker whose next section is a `push`. -/
def Pc.pushes : Pc τ → Bool
  | .push _ => true
  | .refill k cnt => k < cnt
  | _ => false

/-- The tasks are those of the start, each once, and no queue is overrun. -/
structure Conserved (tasks : List τ) (s : State n τ) : Prop where
  tasks : s.tasks = tasks
  /-- `tail - head`, in 64 bits -/
  count : ∀ i, (s.g_local_queues i).count ≤ CAPACITY
  /-- `head` is ahead of `tail` only while it has not wrapped and `tail` has -/
  head_le_tail : ∀ i, (s.g_local_queues i).head ≤ (s.g_local_queues i).tail ↔
    s.steals i % 2 ^ 64 + (s.g_local_queues i).count < 2 ^ 64
  /-- a push writes to no cell that is still to be read -/
  room : ∀ i, (s.pc i).pushes = true → ∀ k < (s.g_local_queues i).count,
    Fin.ofNat CAPACITY ((s.g_local_queues i).head + k) ≠
      Fin.ofNat CAPACITY (s.g_local_queues i).tail

/-- Where a worker pushes, its queue is not full. -/
theorem Fits.room (h : Fits q pc) (hpush : pc.pushes = true) : q.list.length < CAPACITY := by
  obtain ⟨-, hle⟩ := h.inQueue
  have hcap : CAPACITY = 1024 := rfl
  cases pc with
  | push task =>
      simp only [Pc.limit] at hle
      omega
  | refill k cnt =>
      have hcnt := (h.refill k cnt rfl).2
      simp only [Pc.pushes, decide_eq_true_eq] at hpush
      simp only [Pc.limit] at hle
      omega
  | _ => cases hpush

theorem Inv.conserved (h : Inv tasks s) : Conserved tasks s := by
  have hcount : ∀ i, (s.g_local_queues i).count = (s.g_local_queues i).list.length := fun i =>
    (h.fits i).inQueue.1.count_eq CAPACITY_lt
  refine ⟨h.tasks, fun i => ?_, fun i => ?_, fun i hpush k hk => ?_⟩
  · rw [hcount i]
    exact (h.fits i).inQueue.1.fits
  · have hq := (h.fits i).inQueue.1
    have hlt := hq.head_lt
    have hfits := hq.fits
    have hc := CAPACITY_lt
    rw [← h.head i, hcount i, hq.tail_eq]
    simp only [add64]
    omega
  · have hq := (h.fits i).inQueue.1
    have hroom := (h.fits i).room hpush
    rw [hcount i] at hk
    have htail := Ring.ofNat_add64 dvd_CAPACITY (s.g_local_queues i).head
      (s.g_local_queues i).list.length 0
    rw [Nat.add_zero, ← hq.tail_eq, Nat.add_zero] at htail
    rw [htail]
    exact Ring.ofNat_ne (hk.trans hroom) hroom (Nat.ne_of_lt hk)

/-- Whatever the workers do, in any order and with any draws. -/
theorem tasks_conserved (tasks : List τ) (s : State n τ) (hs : Reachable tasks s) : Conserved tasks s :=
  hs.inv.conserved

/-- Worker 1 has fetched three tasks and executed one; worker 0 has stolen another of them,
which is in no queue. -/
theorem tasks_conserved_stolen : ∃ s : State 2 Nat,
    (s.executed, (s.g_local_queues 0).count, (s.g_local_queues 1).count, s.steals 1) =
      ([7], 0, 1, 1) ∧ Conserved [7, 8, 9] s := by
  have hrun : (run (start [7, 8, 9] 0) (List.replicate 9 (1, 1) ++ [(0, 0), (0, 1), (1, 1), (1, 1)])).map
      (fun s : State 2 Nat =>
        (s.executed, (s.g_local_queues 0).count, (s.g_local_queues 1).count, s.steals 1)) =
      some ([7], 0, 1, 1) := by
    decide +kernel
  obtain ⟨s, hs, hfields⟩ := Option.map_eq_some_iff.mp hrun
  exact ⟨s, hfields, tasks_conserved _ s ((Reachable.start (started_start _ _)).run hs)⟩

/-! ## counters that wrap -/

/-- The only task is in queue `j`, from which worker `i` is about to steal. -/
structure Turn (i j : Fin 2) (a b : Nat) (s : State 2 Unit) : Prop where
  pc : s.pc i = .steal 0 ∧ s.pc j = .tryPop
  empty : (s.g_local_queues i).head = a ∧ (s.g_local_queues i).tail = a
  one : (s.g_local_queues j).head = b ∧ (s.g_local_queues j).tail = add64 b 1

/-- Worker `i` steals the task, worker `j` finds nothing, and worker `i` pushes it. -/
theorem Turn.swap {tasks : List Unit} {s : State 2 Unit} {i j : Fin 2} {a b : Nat} (hij : i ≠ j)
    (h : Turn i j a b s) (hs : Reachable tasks s) :
    ∃ s', Reachable tasks s' ∧ Turn j i (add64 b 1) a s' := by
  obtain ⟨⟨hi, hj⟩, ⟨hhi, hti⟩, ⟨hhj, htj⟩⟩ := h
  have hne : (s.g_local_queues j).head ≠ (s.g_local_queues j).tail := by
    rw [hhj, htj]
    simp only [add64]
    omega
  let s₁ := { s with steals := Function.update s.steals j (s.steals j + 1) }.put j
    (s.g_local_queues j).shift i (.push (s.g_local_queues j).front)
  have h₁ : Worker.step i j s = some s₁ := by
    unfold Worker.step
    simp only [hi, Nat.zero_lt_succ, ↓reduceIte, hij.symm, trySteal, hne, s₁]
  have hempty : (s₁.g_local_queues j).head = (s₁.g_local_queues j).tail := by
    simp only [s₁, State.put, Function.update_self, Ring.shift, hhj, htj]
  have hpj : s₁.pc j = .tryPop := by
    simp only [s₁, State.put, Function.update_of_ne hij.symm, hj]
  have h₂ : Worker.step j j s₁ = some (s₁.goto j (.steal 0)) := by
    unfold Worker.step
    simp only [hpj, WorkStealing.tryPop, hempty, ↓reduceIte]
  have hpi : (s₁.goto j (.steal 0)).pc i = .push (s.g_local_queues j).front := by
    simp only [s₁, State.goto, State.put, Function.update_of_ne hij, Function.update_self]
  let s₃ := (s₁.goto j (.steal 0)).put i
    ((s.g_local_queues i).push (s.g_local_queues j).front) i .tryPop
  have h₃ : Worker.step i i (s₁.goto j (.steal 0)) = some s₃ := by
    unfold Worker.step
    simp only [hpi]
    simp only [s₃, s₁, State.goto, State.put, Function.update_of_ne hij]
  have hrun : run s [(i, j), (j, j), (i, i)] = some s₃ := by
    simp only [run, h₁, h₂, h₃, Option.bind_some]
  refine ⟨s₃, hs.run hrun, ⟨?_, ?_⟩, ⟨?_, ?_⟩, ⟨?_, ?_⟩⟩
  all_goals
    simp only [s₃, s₁, State.goto, State.put, Function.update_of_ne hij.symm, Function.update_self,
      Ring.push, Ring.shift, hhi, hti, hhj, htj]

/-- The task goes from one worker to the other and back. -/
theorem Turn.round {tasks : List Unit} {s : State 2 Unit} {k : Nat} (hk : k + 1 < 2 ^ 64)
    (h : Turn 0 1 k k s) (hs : Reachable tasks s) :
    ∃ s', Reachable tasks s' ∧ Turn 0 1 (k + 1) (k + 1) s' := by
  have hadd : add64 k 1 = k + 1 := Nat.mod_eq_of_lt hk
  obtain ⟨s₁, hs₁, h₁⟩ := h.swap (by decide) hs
  obtain ⟨s₂, hs₂, h₂⟩ := h₁.swap (by decide) hs₁
  rw [hadd] at h₂
  exact ⟨s₂, hs₂, h₂⟩

/-- Worker 1 fetches the task, after worker 0 has found nothing. -/
theorem exists_turn : ∃ s : State 2 Unit, Reachable [()] s ∧ Turn 0 1 0 0 s := by
  let l : List (Fin 2 × Fin 2) := [(1, 0), (1, 1), (1, 1), (1, 1), (1, 1), (1, 1), (1, 1), (0, 0)]
  have hsome : (run (start [()] ()) l).isSome := by decide
  obtain ⟨s, hs⟩ := Option.isSome_iff_exists.mp hsome
  refine ⟨s, (Reachable.start (started_start _ _)).run hs, ?_⟩
  cases hs
  exact ⟨⟨rfl, rfl⟩, ⟨rfl, rfl⟩, rfl, rfl⟩

theorem exists_turn_at (k : Nat) (hk : k < 2 ^ 64) :
    ∃ s : State 2 Unit, Reachable [()] s ∧ Turn 0 1 k k s := by
  induction k with
  | zero => exact exists_turn
  | succ k ih =>
      obtain ⟨s, hs, h⟩ := ih (Nat.lt_of_succ_lt hk)
      exact h.round hk hs

/-- After `2 ^ 64 - 1` steals from a queue, `head` is the largest there is, and
the next push wraps `tail`. -/
theorem head_wraps : ∃ s : State 2 Unit, Reachable [()] s ∧
    ¬ (s.g_local_queues 1).head ≤ (s.g_local_queues 1).tail := by
  obtain ⟨s, hs, h⟩ := exists_turn_at (2 ^ 64 - 1) (by decide)
  refine ⟨s, hs, ?_⟩
  rw [h.one.1, h.one.2]
  decide

end WorkStealing

end ServerStudy
