import Mathlib.Algebra.Order.BigOperators.Group.Finset
import Mathlib.Algebra.Order.Group.Multiset
import ServerStudy.WorkStealing

/-!
# ServerStudy.WorkStealing.Count

`g_pending_tasks` of the stand-alone benchmark: what it counts, and what `RunTasks` may conclude
when it is zero.

* `Worker.step_cases` — what a section of a worker does to the counters;
* `Count.step` — the counter is the number of tasks that are not executed, or not reported yet;
* `stops_when_done` — the workers are stopped, and leave, when all tasks have been executed.
-/

namespace ServerStudy

namespace WorkStealing

variable {n : Nat} {τ : Type} {tasks : List τ} {s s' : State n τ} {i : Fin n} {pc : Pc τ}

/-- Whether a worker has executed a task and not reported it yet. -/
def Pc.reports : Pc τ → Nat
  | .report => 1
  | _ => 0

/-- How many have. -/
def State.reporting (s : State n τ) : Nat := ∑ i, (s.pc i).reports

/-- What a section of worker `i` does to `executed` and `g_pending_tasks`, going on to `pc`. -/
inductive Counts (i : Fin n) (s s' : State n τ) (pc : Pc τ) : Prop where
  | execute (task : τ) : (s.pc i).reports = 0 → pc.reports = 1 →
      s'.executed = s.executed ++ [task] → s'.g_pending_tasks = s.g_pending_tasks →
      Counts i s s' pc
  | report : (s.pc i).reports = 1 → pc.reports = 0 → s'.executed = s.executed →
      s'.g_pending_tasks = (s.g_pending_tasks - 1).bmod (2 ^ 32) → Counts i s s' pc
  | quiet : (s.pc i).reports = 0 → pc.reports = 0 → s'.executed = s.executed →
      s'.g_pending_tasks = s.g_pending_tasks → Counts i s s' pc

/-- Whether a section only moves tasks between the queues and the worker. -/
def Pc.moves : Pc τ → Bool
  | .tryPop | .steal _ | .push _ | .tryPopGlobal | .refill _ _ => true
  | _ => false

/-- Whether a worker is in the loop, with nothing to report. -/
def Pc.stays : Pc τ → Bool
  | .report | .left => false
  | _ => true

theorem Pc.of_stays (h : pc.stays = true) : pc ≠ .left ∧ pc.reports = 0 := by
  cases pc with
  | report | left => cases h
  | _ => exact ⟨by simp, rfl⟩

/-- Such a section: the counters stay, and so does the worker. -/
structure Moves (i : Fin n) (s s' : State n τ) : Prop where
  pc : ∃ pc, s'.pc = Function.update s.pc i pc ∧ pc.stays = true
  executed : s'.executed = s.executed
  g_pending_tasks : s'.g_pending_tasks = s.g_pending_tasks
  g_stop : s'.g_stop = s.g_stop

/-- How a branch of a section shows that. -/
theorem Moves.of_some {s₁ : State n τ} (hstep : some s₁ = some s')
    (hpc : s₁.pc = Function.update s.pc i pc) (hstays : pc.stays = true)
    (hexecuted : s₁.executed = s.executed) (hpending : s₁.g_pending_tasks = s.g_pending_tasks)
    (hstop : s₁.g_stop = s.g_stop) : Moves i s s' := by
  obtain rfl := Option.some.inj hstep
  exact ⟨⟨pc, hpc, hstays⟩, hexecuted, hpending, hstop⟩

theorem Worker.step_moves {victim_id : Fin n} (hstep : Worker.step i victim_id s = some s')
    (hmoves : (s.pc i).moves = true) : Moves i s s' := by
  unfold Worker.step at hstep
  cases hpc : s.pc i <;> simp only [hpc] at hstep
  case tryPop => split at hstep <;> exact .of_some hstep rfl rfl rfl rfl rfl
  case steal k =>
    split_ifs at hstep
    case neg => split at hstep <;> exact .of_some hstep rfl rfl rfl rfl rfl
    all_goals exact .of_some hstep rfl rfl rfl rfl rfl
  case push task => exact .of_some hstep rfl rfl rfl rfl rfl
  case tryPopGlobal =>
    split_ifs at hstep <;> exact .of_some hstep rfl rfl rfl rfl rfl
  case refill k cnt =>
    split_ifs at hstep
    · split at hstep <;> exact .of_some hstep rfl rfl rfl rfl rfl
    · exact .of_some hstep rfl rfl rfl rfl rfl
  all_goals
    rw [hpc] at hmoves
    cases hmoves

/-- Every section of a worker. -/
theorem Worker.step_cases {victim_id : Fin n} (hstep : Worker.step i victim_id s = some s') :
    ∃ pc, s'.pc = Function.update s.pc i pc ∧ s'.g_stop = s.g_stop ∧
      (pc = .left → s.g_stop = true) ∧ Counts i s s' pc := by
  cases hmoves : (s.pc i).moves with
  | true =>
      have hold : (s.pc i).reports = 0 := by
        cases hpc : s.pc i <;> first | rfl | (rw [hpc] at hmoves; cases hmoves)
      obtain ⟨⟨pc, hpc, hstays⟩, hexecuted, hpending, hstop⟩ := Worker.step_moves hstep hmoves
      obtain ⟨hleft, hreports⟩ := Pc.of_stays hstays
      exact ⟨pc, hpc, hstop, fun h => absurd h hleft, .quiet hold hreports hexecuted hpending⟩
  | false =>
      unfold Worker.step at hstep
      cases hpc : s.pc i <;> simp only [hpc] at hstep hmoves
      case execute task =>
        cases hstep
        exact ⟨_, rfl, rfl, (fun h => by cases h), .execute task (by rw [hpc]; rfl) rfl rfl rfl⟩
      case report =>
        cases hstep
        exact ⟨_, rfl, rfl, (fun h => by cases h), .report (by rw [hpc]; rfl) rfl rfl rfl⟩
      case stop =>
        cases hstep
        refine ⟨_, rfl, rfl, fun h => ?_, .quiet (by rw [hpc]; rfl) ?_ rfl rfl⟩
        · by_contra hstop
          rw [if_neg hstop] at h
          cases h
        · split_ifs <;> rfl
      case left => cases hstep
      all_goals cases hmoves

/-- The count, and that the workers are told to stop when it is zero. -/
structure Count (tasks : List τ) (s : State n τ) : Prop where
  pending : s.g_pending_tasks = (tasks.length : Int) - s.executed.length + s.reporting
  reporting_le : s.reporting ≤ s.executed.length
  stopped : s.g_stop = true → s.executed.length = tasks.length ∧ s.reporting = 0
  left : ∀ i, s.pc i = .left → s.g_stop = true

/-- No more tasks are executed than there were. -/
theorem Inv.executed_le (h : Inv tasks s) : s.executed.length ≤ tasks.length := by
  have hcard := congrArg Multiset.card h.tasks
  rw [State.tasks, Multiset.card_add, Multiset.coe_card, Multiset.coe_card] at hcard
  omega

/-- How many report, when one worker goes on. -/
theorem reporting_update (hpc : s'.pc = Function.update s.pc i pc) :
    s'.reporting + (s.pc i).reports = s.reporting + pc.reports := by
  have hsum := Scheduler.sum_add_of_eq (f := fun j => (s'.pc j).reports)
    (g := fun j => (s.pc j).reports) i fun j hj => by
      rw [hpc, Function.update_of_ne hj]
  have hnew : s'.pc i = pc := by
    rw [hpc, Function.update_self]
  rw [hnew] at hsum
  exact hsum

theorem reports_le (s : State n τ) (i : Fin n) : (s.pc i).reports ≤ s.reporting :=
  Finset.single_le_sum (f := fun j => (s.pc j).reports) (fun _ _ => Nat.zero_le _)
    (Finset.mem_univ i)

/-- **Step lemma** for the workers. -/
theorem Count.worker (hlen : tasks.length < 2 ^ 31) (h : Count tasks s) (hinv' : Inv tasks s')
    {victim_id : Fin n} (hstep : Worker.step i victim_id s = some s') : Count tasks s' := by
  obtain ⟨pc, hpc, hstop, hleft, hcounts⟩ := Worker.step_cases hstep
  have hsum := reporting_update hpc
  have hle := hinv'.executed_le
  have hpending := h.pending
  have hreporting := h.reporting_le
  have hone := reports_le s i
  have hout : ∀ j, s'.pc j = .left → s'.g_stop = true := fun j hj => by
    rw [hpc] at hj
    rw [hstop]
    by_cases hji : j = i
    · subst hji
      rw [Function.update_self] at hj
      exact hleft hj
    · rw [Function.update_of_ne hji] at hj
      exact h.left j hj
  cases hcounts with
  | execute task hold hnew hexecuted hsame =>
      rw [hexecuted, List.length_append, List.length_singleton] at hle
      refine ⟨?_, ?_, fun hs => ?_, hout⟩
      · rw [hsame, hexecuted, List.length_append, List.length_singleton]
        omega
      · rw [hexecuted, List.length_append, List.length_singleton]
        omega
      · have hall := h.stopped (hstop ▸ hs)
        omega
  | report hold hnew hexecuted hless =>
      rw [hexecuted] at hle
      refine ⟨?_, ?_, fun hs => ?_, hout⟩
      · rw [hless, hexecuted, Int.bmod_eq_of_le (by omega) (by omega)]
        omega
      · rw [hexecuted]
        omega
      · have hall := h.stopped (hstop ▸ hs)
        omega
  | quiet hold hnew hexecuted hsame =>
      refine ⟨?_, ?_, fun hs => ?_, hout⟩
      · rw [hsame, hexecuted]
        omega
      · rw [hexecuted]
        omega
      · have hall := h.stopped (hstop ▸ hs)
        rw [hexecuted]
        omega

/-- The main thread stops the workers when the count is zero. -/
theorem Count.main (h : Count tasks s) (hinv : Inv tasks s) (hzero : s.g_pending_tasks = 0) :
    Count tasks { s with g_stop := true } := by
  have hle := hinv.executed_le
  have hpending := h.pending
  exact ⟨h.pending, h.reporting_le, fun _ => ⟨by
    change s.executed.length = tasks.length
    omega, by
    change s.reporting = 0
    omega⟩, fun _ _ => rfl⟩

theorem Started.count (hlen : tasks.length < 2 ^ 31) (h : Started tasks s) : Count tasks s := by
  have hnone : s.reporting = 0 := Finset.sum_eq_zero fun i _ => by
    have hidle := h.pc i
    cases hpc : s.pc i with
    | report =>
        rw [hpc] at hidle
        cases hidle
    | _ => rfl
  refine ⟨?_, ?_, fun hs => ?_, fun i hi => ?_⟩
  · rw [h.g_pending_tasks, h.executed, hnone, Int.bmod_eq_of_le (by omega) (by omega)]
    simp
  · rw [hnone]
    exact Nat.zero_le _
  · rw [h.g_stop] at hs
    cases hs
  · have hidle := h.pc i
    rw [hi] at hidle
    cases hidle

theorem Reachable.count (hlen : tasks.length < 2 ^ 31) (h : Reachable tasks s) : Count tasks s := by
  induction h with
  | start hs => exact hs.count hlen
  | step hr hstep ih =>
      have hinv := hr.inv
      cases hstep with
      | worker i victim_id hw => exact ih.worker hlen (hinv.worker hw) hw
      | main hzero hs' =>
          rw [hs']
          exact ih.main hinv hzero

/-! ## every run -/

/-- Every task has been executed once and reported, and nobody holds any. -/
structure Finished (tasks : List τ) (s : State n τ) : Prop where
  executed : (s.executed : Multiset τ) = tasks
  g_global_queue : s.g_global_queue = []
  queues : ∀ i, (s.g_local_queues i).count = 0
  held : ∀ i, (s.pc i).held = 0
  reports : ∀ i, (s.pc i).reports = 0

theorem Count.finished (h : Count tasks s) (hinv : Inv tasks s) (hzero : s.g_pending_tasks = 0) :
    Finished tasks s := by
  have hle := hinv.executed_le
  have hpending := h.pending
  have htasks := hinv.tasks
  rw [State.tasks] at htasks
  have hall : s.executed.length = tasks.length := by omega
  have hnone : (s.g_global_queue : Multiset τ) + ∑ i, ((s.g_local_queues i).list : Multiset τ) +
      ∑ i, (s.pc i).held = 0 := by
    have hcard := congrArg Multiset.card htasks
    rw [Multiset.card_add, Multiset.coe_card, Multiset.coe_card, hall] at hcard
    exact Multiset.card_eq_zero.mp (by omega)
  rw [hnone, zero_add] at htasks
  obtain ⟨hqueues, hheld⟩ := add_eq_zero.mp hnone
  obtain ⟨hglobal, hlocal⟩ := add_eq_zero.mp hqueues
  refine ⟨htasks, (Multiset.coe_eq_zero _).mp hglobal, fun i => ?_, fun i => ?_, fun i => ?_⟩
  · have hmine := Finset.sum_eq_zero_iff.mp hlocal i (Finset.mem_univ i)
    have hnil := (Multiset.coe_eq_zero _).mp hmine
    rw [(hinv.fits i).inQueue.1.count_eq CAPACITY_lt, hnil]
    rfl
  · exact Finset.sum_eq_zero_iff.mp hheld i (Finset.mem_univ i)
  · have hone := reports_le s i
    omega

/-- What the counter says of the tasks. -/
structure Accounted (tasks : List τ) (s : State n τ) : Prop where
  executed_le : s.executed.length ≤ tasks.length
  pending : s.g_pending_tasks = ((tasks.length - s.executed.length + s.reporting : Nat) : Int)
  zero : s.g_pending_tasks = 0 → Finished tasks s
  stopped : s.g_stop = true → s.g_pending_tasks = 0
  left : ∀ i, s.pc i = .left → s.g_pending_tasks = 0

/-- **Done before it stops.**  In every reachable state the counter is that of the tasks not yet
executed or not yet reported; the workers are told to stop, and leave, only when it is zero, and
then every task has been executed, each once, and none is left anywhere. -/
theorem stops_when_done (tasks : List τ) (hlen : tasks.length < 2 ^ 31) (s : State n τ)
    (hs : Reachable tasks s) : Accounted tasks s := by
  have h := hs.count hlen
  have hle := hs.inv.executed_le
  have hpending := h.pending
  have hstopped : s.g_stop = true → s.g_pending_tasks = 0 := fun hstop => by
    have hall := h.stopped hstop
    omega
  exact ⟨hle, by rw [hpending]; omega, h.finished hs.inv, hstopped,
    fun i hi => hstopped (h.left i hi)⟩

/-- Whether a worker is out of its loop. -/
def Pc.isLeft : Pc τ → Bool
  | .left => true
  | _ => false

/-- Worker 1 has fetched the two tasks, worker 0 has stolen one of them; both are executed and
reported, and worker 0 has been told to stop and has left. -/
theorem stops_when_done_left : ∃ s : State 2 Nat,
    (s.executed, s.g_pending_tasks, s.g_stop, (s.pc 0).isLeft) = ([7, 8], 0, true, true) ∧
      Accounted [7, 8] s := by
  have hrun : ((run (start [7, 8] 0) (List.replicate 8 (1, 1) ++ [(0, 0), (0, 1), (0, 0)] ++
      List.replicate 3 (1, 1) ++ List.replicate 3 (0, 0))).bind fun s : State 2 Nat =>
        (run { s with g_stop := true } (List.replicate 6 (0, 0))).map fun s' =>
          (s.g_pending_tasks, s'.executed, s'.g_pending_tasks, s'.g_stop, (s'.pc 0).isLeft)) =
      some (0, [7, 8], 0, true, true) := by
    decide +kernel
  obtain ⟨s, hs, h⟩ := Option.bind_eq_some_iff.mp hrun
  obtain ⟨s', hs', hfields⟩ := Option.map_eq_some_iff.mp h
  obtain ⟨hzero, hfields⟩ := Prod.mk.inj hfields
  have hreach := ((Reachable.start (started_start _ _)).run hs).step (.main hzero rfl)
  exact ⟨s', hfields, stops_when_done _ (by decide) s' (hreach.run hs')⟩

end WorkStealing

end ServerStudy
