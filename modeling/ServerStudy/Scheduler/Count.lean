import Mathlib.Algebra.Order.BigOperators.Group.Finset
import ServerStudy.Scheduler.Conserve

/-!
# ServerStudy.Scheduler.Count

What `pending_tasks_` counts: the tasks not executed, and those executed whose
count no `fetch_sub` has taken off yet.

* `Worker.tally` — what each statement of a worker does to the counters;
* `Count.step` — the law is kept by every statement of every thread;
* `pending_exact` — it holds in every reachable state, and what follows from it.
-/

namespace ServerStudy

namespace Scheduler

variable {n : Nat} {τ : Type} {use_complex : Bool}

/-! ## the counters -/

/-- The tasks a worker has executed and not taken off `pending_tasks_`.  Between
the `fetch_sub` and `task_did_ = 0` there are none. -/
def unreported (use_complex : Bool) (task_did_ : Nat) : Pc n τ → Nat
  | .did => task_did_ + 1
  | .report => if use_complex then task_did_ else 1
  | .notify | .reset => 0
  | _ => task_did_

/-- Those of worker `i`. -/
def State.unreported (use_complex : Bool) (s : State n τ) (i : Fin n) : Nat :=
  Scheduler.unreported use_complex (s.workers i).task_did_ (s.pc i)

/-- The statements of `RunSimple`. -/
def Pc.inSimple : Pc n τ → Bool
  | .take | .execute _ | .stop | .report | .notify | .left => true
  | _ => false

/-- The statements of `RunComplex`. -/
def Pc.inComplex : Pc n τ → Bool
  | .take => false
  | _ => true

/-- A worker of that kind may be at `pc`. -/
structure Shape (use_complex : Bool) (task_did_ : Nat) (pc : Pc n τ) : Prop where
  simple : use_complex = false → task_did_ = 0 ∧ pc.inSimple = true
  complex : use_complex = true → pc.inComplex = true
  report : use_complex = true → pc = .report → 0 < task_did_

/-- What a statement of worker `i` does to the counters. -/
inductive Tally (use_complex : Bool) (i : Fin n) (s s' : State n τ) : Prop where
  | quiet : s.pc i ≠ .notify → s'.pc i ≠ .notify → s'.pending_tasks_ = s.pending_tasks_ →
      s'.executed = s.executed → s'.zeroed = s.zeroed → s'.main = s.main →
      s'.unreported use_complex i = s.unreported use_complex i → Tally use_complex i s s'
  | execute (task : τ) : s.pc i ≠ .notify → s'.pc i ≠ .notify →
      s'.pending_tasks_ = s.pending_tasks_ → s'.executed = s.executed ++ [task] →
      s'.zeroed = s.zeroed → s'.main = s.main →
      s'.unreported use_complex i = s.unreported use_complex i + 1 → Tally use_complex i s s'
  | report : s.pc i = .report → 0 < s.unreported use_complex i →
      s'.pending_tasks_ = fetchSub s.pending_tasks_ (s.unreported use_complex i) →
      s'.executed = s.executed → s'.main = s.main → s'.unreported use_complex i = 0 →
      (if toSizeT s.pending_tasks_ = s.unreported use_complex i then
        s'.zeroed = s.zeroed ++ [i] ∧ s'.pc i = .notify
      else s'.zeroed = s.zeroed ∧ s'.pc i ≠ .notify) → Tally use_complex i s s'
  | notify : s.pc i = .notify → s'.pc i ≠ .notify → s'.pending_tasks_ = s.pending_tasks_ →
      s'.executed = s.executed → s'.zeroed = s.zeroed →
      s'.main = (if s.main = .asleep then .lock else s.main) →
      s'.unreported use_complex i = s.unreported use_complex i → Tally use_complex i s s'

/-! ## `task_did_` within the critical sections -/

section Sections

variable {owns localOwns : Bool} {g g' : List τ} {w w' : Worker τ} {cnt batch_size : Nat}

theorem tryFetchGlobal_did
    (h : tryFetchGlobal owns localOwns n g w batch_size = .ok (cnt, g', w')) :
    w'.task_did_ = w.task_did_ := by
  unfold tryFetchGlobal at h
  split_ifs at h
  · cases h
    rfl
  · cases h
    rfl
  · dsimp only at h
    cases hfetch : fetch (fetchCount n g w batch_size) g w.queue_ with
    | error e =>
        rw [hfetch] at h
        cases h
    | ok r =>
        rw [hfetch] at h
        cases h
        rfl

theorem tryStealFrom_did {workers workers' : Fin n → Worker τ} {i v : Fin n}
    (h : tryStealFrom owns localOwns workers i v batch_size = .ok (cnt, workers')) (j : Fin n) :
    (workers' j).task_did_ = (workers j).task_did_ := by
  unfold tryStealFrom at h
  split_ifs at h
  · cases h
    rfl
  · cases h
    rfl
  · dsimp only at h
    generalize Ring.transfer (stealCount (workers v) (workers i) batch_size) (workers v).queue_
      (workers i).queue_ = moved at h
    cases h
    by_cases hj : j = i
    · subst hj
      rw [Function.update_self]
    · rw [Function.update_of_ne hj]
      by_cases hjv : j = v
      · subst hjv
        rw [Function.update_self]
      · rw [Function.update_of_ne hjv]

theorem getNextTask_did (w : Worker τ) : (getNextTask w).2.task_did_ = w.task_did_ := by
  unfold getNextTask
  split_ifs <;> rfl

theorem fillBuffer_did (w : Worker τ) (batch_size : Nat) :
    (fillBuffer w batch_size).2.task_did_ = w.task_did_ := by
  have hdid : ∀ (cnt : Nat) (moved : Ring kQueueSize_ τ × Ring kMaxBufferSize_ τ),
      (cnt, { w with queue_ := moved.1, buffer_ := moved.2 }).2.task_did_ = w.task_did_ :=
    fun _ _ => rfl
  exact hdid _ (Ring.transfer (min w.queue_.count batch_size) w.queue_ w.buffer_)

end Sections

/-! ## what a statement counts -/

/-- A statement of worker `i`, as far as the counters are concerned. -/
structure Turn (use_complex : Bool) (i : Fin n) (s s' : State n τ) : Prop where
  others : ∀ j, j ≠ i → s'.pc j = s.pc j ∧ (s'.workers j).task_did_ = (s.workers j).task_did_
  stop_ : s'.stop_ = s.stop_
  shape : Shape use_complex (s'.workers i).task_did_ (s'.pc i)
  left : s'.pc i = .left → s.stop_ = true
  tally : Tally use_complex i s s'

variable {s s' : State n τ} {i : Fin n} {pc : Pc n τ}

theorem Turn.of (hdid : ∀ j, j ≠ i → (s'.workers j).task_did_ = (s.workers j).task_did_)
    (hpc : s'.pc = Function.update s.pc i pc) (hstop : s'.stop_ = s.stop_)
    (hshape : Shape use_complex (s'.workers i).task_did_ pc) (hleft : pc = .left → s.stop_ = true)
    (htally : Tally use_complex i s s') : Turn use_complex i s s' := by
  have hself : s'.pc i = pc := by rw [hpc, Function.update_self]
  refine ⟨fun j hj => ⟨?_, hdid j hj⟩, hstop, hself.symm ▸ hshape, hself.symm ▸ hleft, htally⟩
  rw [hpc, Function.update_of_ne hj]

/-- A statement that counts nothing. -/
theorem Turn.quiet (hdid : ∀ j, j ≠ i → (s'.workers j).task_did_ = (s.workers j).task_did_)
    (hpc : s'.pc = Function.update s.pc i pc) (hstop : s'.stop_ = s.stop_)
    (hshape : Shape use_complex (s'.workers i).task_did_ pc) (hleft : pc = .left → s.stop_ = true)
    (hold : s.pc i ≠ .notify) (hnew : pc ≠ .notify)
    (hpending : s'.pending_tasks_ = s.pending_tasks_) (hexecuted : s'.executed = s.executed) (hzeroed : s'.zeroed = s.zeroed)
    (hmain : s'.main = s.main)
    (hun : Scheduler.unreported use_complex (s'.workers i).task_did_ pc =
      s.unreported use_complex i) : Turn use_complex i s s' := by
  have hself : s'.pc i = pc := by rw [hpc, Function.update_self]
  refine .of hdid hpc hstop hshape hleft
    (.quiet hold (hself.symm ▸ hnew) hpending hexecuted hzeroed hmain ?_)
  rw [State.unreported, hself]
  exact hun

/-- The same kind of loop goes on with the same `task_did_`. -/
theorem Shape.goto {d : Nat} {pc' : Pc n τ} (h : Shape use_complex d pc)
    (hsimple : pc.inSimple = true → pc'.inSimple = true)
    (hcomplex : pc.inComplex = true → pc'.inComplex = true) (hreport : pc' ≠ .report) :
    Shape use_complex d pc' :=
  ⟨fun he => ⟨(h.simple he).1, hsimple (h.simple he).2⟩, fun he => hcomplex (h.complex he),
    fun _ he => absurd he hreport⟩

/-- A statement of `RunComplex` alone. -/
theorem Shape.isComplex {d : Nat} (h : Shape use_complex d pc) (hpc : pc.inSimple = false) :
    use_complex = true := by
  cases use_complex with
  | true => rfl
  | false => exact absurd ((h.simple rfl).2.symm.trans hpc) Bool.true_eq_false.mp

/-- The counters of a worker that goes on, counting nothing. -/
theorem Turn.goto {s₁ : State n τ} (hworkers : s₁.workers = s.workers) (hpcs : s₁.pc = s.pc)
    (hstop : s₁.stop_ = s.stop_) (hpending : s₁.pending_tasks_ = s.pending_tasks_)
    (hexecuted : s₁.executed = s.executed) (hzeroed : s₁.zeroed = s.zeroed)
    (hmain : s₁.main = s.main) (hshape : Shape use_complex (s.workers i).task_did_ pc)
    (hleft : pc = .left → s.stop_ = true) (hold : s.pc i ≠ .notify) (hnew : pc ≠ .notify)
    (hun : Scheduler.unreported use_complex (s.workers i).task_did_ pc =
      s.unreported use_complex i) : Turn use_complex i s (s₁.goto i pc) := by
  have hw : (s₁.goto i pc).workers = s.workers := hworkers
  refine .quiet (fun j _ => by rw [hw]) ?_ hstop (by rw [hw]; exact hshape) hleft hold hnew hpending
    hexecuted hzeroed hmain (by rw [hw]; exact hun)
  rw [← hpcs]
  rfl

/-- The counters of a worker whose queues change and whose `task_did_` does not. -/
theorem Turn.put {s₁ : State n τ} {w : Worker τ} (hworkers : s₁.workers = s.workers)
    (hpcs : s₁.pc = s.pc) (hstop : s₁.stop_ = s.stop_)
    (hpending : s₁.pending_tasks_ = s.pending_tasks_) (hexecuted : s₁.executed = s.executed)
    (hzeroed : s₁.zeroed = s.zeroed) (hmain : s₁.main = s.main)
    (hshape : Shape use_complex w.task_did_ pc)
    (hleft : pc = .left → s.stop_ = true) (hold : s.pc i ≠ .notify) (hnew : pc ≠ .notify)
    (hun : Scheduler.unreported use_complex w.task_did_ pc = s.unreported use_complex i) :
    Turn use_complex i s (s₁.put i w pc) := by
  have hself : (s₁.put i w pc).workers i = w := Function.update_self _ _ _
  refine .quiet (fun j hj => ?_) ?_ hstop (by rw [hself]; exact hshape) hleft hold hnew hpending
    hexecuted hzeroed hmain (by rw [hself]; exact hun)
  · rw [← hworkers]
    exact congrArg Worker.task_did_ (Function.update_of_ne hj _ _)
  · rw [← hpcs]
    rfl

theorem Worker.turn {ch : Choice n} (hshape : Shape use_complex (s.workers i).task_did_ (s.pc i))
    (hlt : s.pc i = .did → (s.workers i).task_did_ + 1 < 2 ^ 64)
    (hstep : Worker.step use_complex i ch s = .ok (some s')) : Turn use_complex i s s' := by
  have hun : s.unreported use_complex i =
    Scheduler.unreported use_complex (s.workers i).task_did_ (s.pc i) := rfl
  unfold Worker.step at hstep
  cases hpc : s.pc i with
  | take =>
      rw [hpc] at hun hshape
      have hold : s.pc i ≠ .notify := by
        rw [hpc]
        simp
      simp only [hpc] at hstep
      split_ifs at hstep
      · cases hstep
      · cases hglobal : s.global_queue_ with
        | nil =>
            simp only [hglobal] at hstep
            cases hstep
            have hnext : Shape use_complex (s.workers i).task_did_ .stop :=
              hshape.goto (fun _ => rfl) (fun _ => rfl) (by simp)
            exact .goto rfl rfl rfl rfl rfl rfl rfl hnext (by simp) hold (by simp) hun.symm
        | cons task rest =>
            simp only [hglobal] at hstep
            cases hstep
            have hnext : Shape use_complex _ (.execute task) :=
              hshape.goto (fun _ => rfl) (fun _ => rfl) (by simp)
            exact .goto rfl rfl rfl rfl rfl rfl rfl hnext (by simp) hold (by simp) hun.symm
  | next =>
      rw [hpc] at hun hshape
      have hold : s.pc i ≠ .notify := by
        rw [hpc]
        simp
      have hdid := getNextTask_did (s.workers i)
      simp only [hpc] at hstep
      generalize getNextTask (s.workers i) = r at hdid hstep
      obtain ⟨task, w⟩ := r
      replace hdid : w.task_did_ = (s.workers i).task_did_ := hdid
      cases hstep
      cases task with
      | none =>
          have hnext : Shape use_complex (s.workers i).task_did_ .fillBuffer :=
            hshape.goto (fun he => Bool.noConfusion he) (fun _ => rfl) (by simp)
          rw [← hdid] at hnext
          exact .put rfl rfl rfl rfl rfl rfl rfl hnext (by simp [Pc.test]) hold (by simp [Pc.test])
            (hdid.trans hun.symm)
      | some task =>
          have hnext : Shape use_complex (s.workers i).task_did_ (.execute task) :=
            hshape.goto (fun _ => rfl) (fun _ => rfl) (by simp)
          rw [← hdid] at hnext
          exact .put rfl rfl rfl rfl rfl rfl rfl hnext (by simp [Pc.test]) hold (by simp [Pc.test])
            (hdid.trans hun.symm)
  | execute task =>
      rw [hpc] at hun hshape
      have hold : s.pc i ≠ .notify := by
        rw [hpc]
        simp
      simp only [hpc] at hstep
      cases hstep
      cases use_complex with
      | false =>
          have hdid := (hshape.simple rfl).1
          refine .of (fun j _ => rfl) rfl rfl ⟨fun _ => ⟨hdid, rfl⟩, by simp, by simp⟩ (by simp)
            (.execute task hold ?_ rfl rfl rfl rfl ?_)
          · simp [State.goto]
          · rw [hun, State.unreported]
            simp [State.goto, Scheduler.unreported, hdid]
      | true =>
          refine .of (fun j _ => rfl) rfl rfl ⟨by simp, fun _ => rfl, by simp⟩ (by simp)
            (.execute task hold ?_ rfl rfl rfl rfl ?_)
          · simp [State.goto]
          · rw [hun, State.unreported]
            simp [State.goto, Scheduler.unreported]
  | did =>
      rw [hpc] at hun hshape
      obtain rfl := hshape.isComplex rfl
      have hold : s.pc i ≠ .notify := by
        rw [hpc]
        simp
      simp only [hpc] at hstep
      cases hstep
      rw [add64_of_lt (hlt hpc)]
      exact .put rfl rfl rfl rfl rfl rfl rfl ⟨by simp, fun _ => rfl, by simp⟩ (by simp) hold
        (by simp) hun.symm
  | fillBuffer =>
      rw [hpc] at hun hshape
      have hold : s.pc i ≠ .notify := by
        rw [hpc]
        simp
      have hdid := fillBuffer_did (s.workers i) 64
      simp only [hpc] at hstep
      generalize fillBuffer (s.workers i) 64 = r at hdid hstep
      cases hstep
      obtain rfl := hshape.isComplex rfl
      have hnext : ∀ pc : Pc n τ, pc.inComplex = true → pc ≠ .report →
          Shape true r.2.task_did_ pc := fun pc hcomplex hreport =>
        ⟨(by simp), fun _ => hcomplex, fun _ he => absurd he hreport⟩
      by_cases hpos : r.1 > 0
      · rw [if_pos hpos]
        exact .put rfl rfl rfl rfl rfl rfl rfl (hnext _ rfl (by simp)) (by simp) hold (by simp)
          (hdid.trans hun.symm)
      · rw [if_neg hpos]
        exact .put rfl rfl rfl rfl rfl rfl rfl (hnext _ rfl (by simp)) (by simp) hold (by simp)
          (hdid.trans hun.symm)
  | tryFetchGlobal =>
      rw [hpc] at hun hshape
      have hold : s.pc i ≠ .notify := by
        rw [hpc]
        simp
      simp only [hpc] at hstep
      cases hfetch : Scheduler.tryFetchGlobal (ch.owns && !s.main.holds) ch.localOwns n
          s.global_queue_ (s.workers i) 256 with
      | error e =>
          rw [hfetch] at hstep
          cases hstep
      | ok r =>
          obtain ⟨cnt, g, w⟩ := r
          have hdid : w.task_did_ = (s.workers i).task_did_ := tryFetchGlobal_did hfetch
          rw [hfetch] at hstep
          cases hstep
          obtain rfl := hshape.isComplex rfl
          have hnext : ∀ pc : Pc n τ, pc.inComplex = true → pc ≠ .report →
              Shape true w.task_did_ pc := fun pc hcomplex hreport =>
            ⟨(by simp), fun _ => hcomplex, fun _ he => absurd he hreport⟩
          by_cases hpos : cnt > 0
          · rw [if_pos hpos]
            exact .put rfl rfl rfl rfl rfl rfl rfl (hnext _ rfl (by simp)) (by simp) hold (by simp)
              (hdid.trans hun.symm)
          · rw [if_neg hpos]
            exact .put rfl rfl rfl rfl rfl rfl rfl (hnext _ rfl (by simp)) (by simp) hold (by simp)
              (hdid.trans hun.symm)
  | tryStealAny k =>
      rw [hpc] at hun hshape
      have hold : s.pc i ≠ .notify := by
        rw [hpc]
        simp
      simp only [hpc] at hstep
      split_ifs at hstep
      · cases hstep
        have hnext : Shape use_complex (s.workers i).task_did_
            (.peek k ch.victim (s.workers ch.victim).queue_.tail) :=
          hshape.goto (fun he => Bool.noConfusion he) (fun _ => rfl) (by simp)
        exact .goto rfl rfl rfl rfl rfl rfl rfl hnext (by simp) hold (by simp) hun.symm
      · cases hstep
        have hnext : Shape use_complex (s.workers i).task_did_ .stop :=
          hshape.goto (fun _ => rfl) (fun _ => rfl) (by simp)
        exact .goto rfl rfl rfl rfl rfl rfl rfl hnext (by simp) hold (by simp) hun.symm
  | peek k v tail =>
      rw [hpc] at hun hshape
      have hold : s.pc i ≠ .notify := by
        rw [hpc]
        simp
      simp only [hpc] at hstep
      split_ifs at hstep
      · cases hstep
        have hnext : Shape use_complex (s.workers i).task_did_ (.tryStealAny (k + 1)) :=
          hshape.goto (fun he => Bool.noConfusion he) (fun _ => rfl) (by simp)
        exact .goto rfl rfl rfl rfl rfl rfl rfl hnext (by simp) hold (by simp) hun.symm
      · cases hstep
        have hnext : Shape use_complex (s.workers i).task_did_ (.tryStealFrom k v) :=
          hshape.goto (fun he => Bool.noConfusion he) (fun _ => rfl) (by simp)
        exact .goto rfl rfl rfl rfl rfl rfl rfl hnext (by simp) hold (by simp) hun.symm
  | tryStealFrom k v =>
      rw [hpc] at hun hshape
      have hold : s.pc i ≠ .notify := by
        rw [hpc]
        simp
      simp only [hpc] at hstep
      cases hsteal : Scheduler.tryStealFrom ch.owns ch.localOwns s.workers i v 256 with
      | error e =>
          rw [hsteal] at hstep
          cases hstep
      | ok r =>
          obtain ⟨cnt, workers⟩ := r
          have hdid := tryStealFrom_did hsteal
          rw [hsteal] at hstep
          cases hstep
          obtain rfl := hshape.isComplex rfl
          have hnext : ∀ pc : Pc n τ, pc.inComplex = true → pc ≠ .report →
              Shape true (workers i).task_did_ pc := fun pc hcomplex hreport =>
            ⟨(by simp), fun _ => hcomplex, fun _ he => absurd he hreport⟩
          by_cases hpos : cnt > 0
          · rw [if_pos hpos]
            exact .quiet (fun j _ => hdid j) rfl rfl (hnext _ rfl (by simp)) (by simp) hold
              (by simp) rfl rfl rfl rfl ((hdid i).trans hun.symm)
          · rw [if_neg hpos]
            exact .quiet (fun j _ => hdid j) rfl rfl (hnext _ rfl (by simp)) (by simp) hold
              (by simp) rfl rfl rfl rfl ((hdid i).trans hun.symm)
  | stop =>
      rw [hpc] at hun hshape
      have hold : s.pc i ≠ .notify := by
        rw [hpc]
        simp
      simp only [hpc] at hstep
      split_ifs at hstep with hstop hmode hdid
      · cases hstep
        have hnext : Shape use_complex (s.workers i).task_did_ .left :=
          hshape.goto (fun _ => rfl) (fun _ => rfl) (by simp)
        exact .goto rfl rfl rfl rfl rfl rfl rfl hnext (fun _ => hstop) hold (by simp) hun.symm
      · cases hstep
        subst hmode
        exact .goto rfl rfl rfl rfl rfl rfl rfl ⟨by simp, fun _ => rfl, fun _ _ => hdid⟩ (by simp)
          hold (by simp) hun.symm
      · cases hstep
        subst hmode
        exact .goto rfl rfl rfl rfl rfl rfl rfl ⟨by simp, fun _ => rfl, by simp⟩ (by simp) hold
          (by simp) hun.symm
      · cases hstep
        have hmode : use_complex = false := Bool.eq_false_iff.mpr hmode
        subst hmode
        have hnext : Shape false (s.workers i).task_did_ (.take : Pc n τ) :=
          ⟨fun _ => ⟨(hshape.simple rfl).1, rfl⟩, (by simp), (by simp)⟩
        exact .goto rfl rfl rfl rfl rfl rfl rfl hnext (by simp) hold (by simp) hun.symm
  | report =>
      rw [hpc] at hun hshape
      simp only [hpc] at hstep
      cases use_complex with
      | false =>
          have hdid := (hshape.simple rfl).1
          have hone : s.unreported false i = 1 := hun
          simp only [Bool.false_eq_true, if_false] at hstep
          split_ifs at hstep with hzero
          · cases hstep
            refine .of (fun j _ => rfl) rfl rfl ⟨fun _ => ⟨hdid, rfl⟩, by simp, by simp⟩ (by simp)
              (.report hpc ?_ ?_ rfl rfl ?_ ?_)
            · rw [hone]
              exact Nat.one_pos
            · rw [hone]
              rfl
            · simp [State.unreported, State.goto, Scheduler.unreported]
            · rw [hone, if_pos hzero]
              exact ⟨rfl, Function.update_self _ _ _⟩
          · cases hstep
            refine .of (fun j _ => rfl) rfl rfl ⟨fun _ => ⟨hdid, rfl⟩, by simp, by simp⟩ (by simp)
              (.report hpc ?_ ?_ rfl rfl ?_ ?_)
            · rw [hone]
              exact Nat.one_pos
            · rw [hone]
              rfl
            · simp [State.unreported, State.goto, Scheduler.unreported, hdid]
            · rw [hone, if_neg hzero]
              refine ⟨rfl, ?_⟩
              simp [State.goto]
      | true =>
          have hdid := hshape.report rfl rfl
          have hall : s.unreported true i = (s.workers i).task_did_ := hun
          simp only [if_true] at hstep
          split_ifs at hstep with hzero
          · cases hstep
            refine .of (fun j _ => rfl) rfl rfl ⟨by simp, fun _ => rfl, by simp⟩ (by simp)
              (.report hpc (hall.symm ▸ hdid) ?_ rfl rfl ?_ ?_)
            · rw [hall]
              rfl
            · simp [State.unreported, State.goto, Scheduler.unreported]
            · rw [hall, if_pos hzero]
              exact ⟨rfl, Function.update_self _ _ _⟩
          · cases hstep
            refine .of (fun j _ => rfl) rfl rfl ⟨by simp, fun _ => rfl, by simp⟩ (by simp)
              (.report hpc (hall.symm ▸ hdid) ?_ rfl rfl ?_ ?_)
            · rw [hall]
              rfl
            · simp [State.unreported, State.goto, Scheduler.unreported]
            · rw [hall, if_neg hzero]
              refine ⟨rfl, ?_⟩
              simp [State.goto]
  | notify =>
      rw [hpc] at hun hshape
      simp only [hpc] at hstep
      cases hstep
      cases use_complex with
      | false =>
          have hdid := (hshape.simple rfl).1
          refine .of (fun j _ => rfl) rfl rfl ⟨fun _ => ⟨hdid, rfl⟩, by simp, by simp⟩ (by simp)
            (.notify hpc ?_ rfl rfl rfl rfl ?_)
          · simp [State.goto]
          · rw [hun]
            simp [State.unreported, State.goto, Scheduler.unreported, hdid]
      | true =>
          refine .of (fun j _ => rfl) rfl rfl ⟨by simp, fun _ => rfl, by simp⟩ (by simp)
            (.notify hpc ?_ rfl rfl rfl rfl ?_)
          · simp [State.goto]
          · rw [hun]
            simp [State.unreported, State.goto, Scheduler.unreported]
  | reset =>
      rw [hpc] at hun hshape
      have hold : s.pc i ≠ .notify := by
        rw [hpc]
        simp
      obtain rfl := hshape.isComplex rfl
      simp only [hpc] at hstep
      cases hstep
      exact .put rfl rfl rfl rfl rfl rfl rfl ⟨by simp, fun _ => rfl, by simp⟩ (by simp) hold
        (by simp) hun.symm
  | left =>
      simp only [hpc] at hstep
      cases hstep

/-! ## the law -/

/-- The main thread has seen `pending_tasks_` at zero. -/
def MainPc.past : MainPc → Bool
  | .unlock | .stop | .join | .done => true
  | _ => false

/-- `reported` tasks have been taken off `pending_tasks_`, and the others that
were executed are unreported; the `fetch_sub` that reached zero was one, and only
its worker notifies. -/
structure Count (use_complex : Bool) (tasks : List τ) (s : State n τ) : Prop where
  shape : ∀ i, Shape use_complex (s.workers i).task_did_ (s.pc i)
  law : ∃ reported : Nat, s.executed.length = reported + ∑ i, s.unreported use_complex i ∧
    s.pending_tasks_ = tasks.length - reported
  zeroed : s.zeroed.length = if s.pending_tasks_ = 0 ∧ tasks ≠ [] then 1 else 0
  notify : ∀ i, s.pc i = .notify → i ∈ s.zeroed
  stop_ : s.stop_ = true → s.pending_tasks_ = 0
  past : s.main.past = true → s.pending_tasks_ = 0
  left : ∀ i, s.pc i = .left → s.pending_tasks_ = 0

variable {tasks : List τ}

/-- No more tasks are executed than there were. -/
theorem Inv.executed_le (h : Inv tasks s) : s.executed.length ≤ tasks.length := by
  have hcard := congrArg Multiset.card h.tasks
  rw [s.tasks_eq, Multiset.card_add, Multiset.card_add, Multiset.coe_card, Multiset.coe_card,
    Multiset.coe_card] at hcard
  omega

/-- The sum over all workers when one of them changes. -/
theorem sum_unreported (ht : Turn use_complex i s s') :
    ∑ j, s'.unreported use_complex j + s.unreported use_complex i =
      ∑ j, s.unreported use_complex j + s'.unreported use_complex i := by
  refine sum_add_of_eq i fun j hj => ?_
  rw [State.unreported, State.unreported, (ht.others j hj).1, (ht.others j hj).2]

theorem unreported_le (s : State n τ) (i : Fin n) :
    s.unreported use_complex i ≤ ∑ j, s.unreported use_complex j :=
  Finset.single_le_sum (fun _ _ => Nat.zero_le _) (Finset.mem_univ i)

/-- Taking off no more than there is. -/
theorem fetchSub_of_le {pending d : Nat} (hd : d ≤ pending) (hlt : pending < 2 ^ 31) :
    fetchSub pending d = (pending : Int) - d := by
  have hself : (d : Int).bmod (2 ^ 32) = d := Int.bmod_eq_of_le (by omega) (by omega)
  rw [fetchSub, hself, Int.bmod_eq_of_le (by omega) (by omega)]

theorem toSizeT_natCast {pending : Nat} (hlt : pending < 2 ^ 31) : toSizeT pending = pending := by
  unfold toSizeT
  omega

/-- Where the law holds, a statement of a worker is one turn of its loop. -/
theorem Count.turn (hlen : tasks.length < 2 ^ 31) (h : Count use_complex tasks s)
    (hinv : Inv tasks s) {ch : Choice n} (hstep : Worker.step use_complex i ch s = .ok (some s')) :
    Turn use_complex i s s' := by
  obtain ⟨reported, hexecuted, -⟩ := h.law
  have hle := hinv.executed_le
  have hu := @unreported_le n τ use_complex s i
  refine Worker.turn (h.shape i) (fun hpc => ?_) hstep
  rw [State.unreported, hpc] at hu
  have hu' : (s.workers i).task_did_ + 1 ≤ ∑ j, s.unreported use_complex j := hu
  omega

/-- **Step lemma** for the workers. -/
theorem Count.worker (hlen : tasks.length < 2 ^ 31) (h : Count use_complex tasks s)
    (hinv : Inv tasks s) (hinv' : Inv tasks s') {ch : Choice n}
    (hstep : Worker.step use_complex i ch s = .ok (some s')) : Count use_complex tasks s' := by
  obtain ⟨reported, hexecuted, hpending⟩ := h.law
  have hle := hinv.executed_le
  have hle' := hinv'.executed_le
  have hu := @unreported_le n τ use_complex s i
  have hzeroed := h.zeroed
  have ht := h.turn hlen hinv hstep
  have hsum := sum_unreported ht
  have hshape : ∀ j, Shape use_complex (s'.workers j).task_did_ (s'.pc j) := by
    intro j
    by_cases hj : j = i
    · subst hj
      exact ht.shape
    · rw [(ht.others j hj).1, (ht.others j hj).2]
      exact h.shape j
  -- what is known of zero stays known, when no `fetch_sub` is made
  have hkept : s'.pending_tasks_ = s.pending_tasks_ → (s'.main.past = true → s.main.past = true) →
      (s'.stop_ = true → s'.pending_tasks_ = 0) ∧ (s'.main.past = true → s'.pending_tasks_ = 0) ∧
        ∀ j, s'.pc j = .left → s'.pending_tasks_ = 0 := by
    intro hp hpast
    rw [hp, ht.stop_]
    refine ⟨h.stop_, fun he => h.past (hpast he), fun j hj => ?_⟩
    by_cases hji : j = i
    · subst hji
      exact h.stop_ (ht.left hj)
    · rw [(ht.others j hji).1] at hj
      exact h.left j hj
  have hnotify : s'.pc i ≠ .notify → s'.zeroed = s.zeroed →
      ∀ j, s'.pc j = .notify → j ∈ s'.zeroed := by
    intro hnew hz j hj
    by_cases hji : j = i
    · subst hji
      exact absurd hj hnew
    · rw [(ht.others j hji).1] at hj
      rw [hz]
      exact h.notify j hj
  cases ht.tally with
  | quiet _ hnew hp he hz hm hun =>
      obtain ⟨hstop, hpast, hleft⟩ := hkept hp (by rw [hm]; exact id)
      refine ⟨hshape, ⟨reported, ?_, by rw [hp, hpending]⟩, by rw [hz, hp, hzeroed],
        hnotify hnew hz, hstop, hpast, hleft⟩
      rw [he]
      omega
  | execute task _ hnew hp he hz hm hun =>
      obtain ⟨hstop, hpast, hleft⟩ := hkept hp (by rw [hm]; exact id)
      refine ⟨hshape, ⟨reported, ?_, by rw [hp, hpending]⟩, by rw [hz, hp, hzeroed],
        hnotify hnew hz, hstop, hpast, hleft⟩
      rw [he, List.length_append, List.length_singleton]
      omega
  | notify _ hnew hp he hz hm hun =>
      have hpast : s'.main.past = true → s.main.past = true := by
        rw [hm]
        split_ifs
        · exact nofun
        · exact id
      obtain ⟨hstop, hpast, hleft⟩ := hkept hp hpast
      refine ⟨hshape, ⟨reported, ?_, by rw [hp, hpending]⟩, by rw [hz, hp, hzeroed],
        hnotify hnew hz, hstop, hpast, hleft⟩
      rw [he]
      omega
  | report hpc hpos hp he hm hun hz =>
      obtain ⟨rest, hrest⟩ : ∃ rest, tasks.length = reported + rest := ⟨_, (Nat.add_sub_of_le
        (by omega)).symm⟩
      have hrest' : s.pending_tasks_ = (rest : Int) := by
        rw [hpending]
        omega
      have hp' : s'.pending_tasks_ = (rest : Int) - s.unreported use_complex i := by
        rw [hp, hrest']
        exact fetchSub_of_le (by omega) (by omega)
      have hne : s.pending_tasks_ ≠ 0 := by
        rw [hrest']
        omega
      rw [hrest', toSizeT_natCast (by omega)] at hz
      rw [if_neg fun hz => hne hz.1] at hzeroed
      have hsome : tasks ≠ [] := by
        rintro rfl
        rw [List.length_nil] at hrest
        omega
      refine ⟨hshape, ⟨reported + s.unreported use_complex i, ?_, ?_⟩, ?_, fun j hj => ?_,
        fun hs => ?_, fun hs => ?_, fun j hj => ?_⟩
      · rw [he]
        omega
      · rw [hp', hrest]
        push_cast
        omega
      · by_cases hall : rest = s.unreported use_complex i
        · rw [if_pos hall] at hz
          rw [hz.1, List.length_append, hzeroed, if_pos ⟨by rw [hp']; omega, hsome⟩]
          rfl
        · rw [if_neg hall] at hz
          rw [hz.1, hzeroed, if_neg (by rw [hp']; omega)]
      · by_cases hji : j = i
        · subst hji
          by_cases hall : rest = s.unreported use_complex j
          · rw [if_pos hall] at hz
            rw [hz.1]
            exact List.mem_append_right _ (List.mem_singleton_self j)
          · rw [if_neg hall] at hz
            exact absurd hj hz.2
        · rw [(ht.others j hji).1] at hj
          have hj' := h.notify j hj
          rw [List.eq_nil_of_length_eq_zero hzeroed] at hj'
          exact absurd hj' List.not_mem_nil
      · rw [ht.stop_] at hs
        exact absurd (h.stop_ hs) hne
      · rw [hm] at hs
        exact absurd (h.past hs) hne
      · by_cases hji : j = i
        · subst hji
          exact absurd (h.stop_ (ht.left hj)) hne
        · rw [(ht.others j hji).1] at hj
          exact absurd (h.left j hj) hne

/-- What the main thread does up to reading zero, and after. -/
theorem RunTasks.turn (h : RunTasks.step s = some s') :
    (s.main = .lock ∧ s'.main = .check ∧ s'.stop_ = s.stop_) ∨
    (s.main = .check ∧ s'.main = (if s.pending_tasks_ = 0 then .unlock else .sleep) ∧
      s'.stop_ = s.stop_) ∨
    (s.main = .sleep ∧ s'.main = .asleep ∧ s'.stop_ = s.stop_) ∨
    (s.main = .asleep ∧ s'.main = .lock ∧ s'.stop_ = s.stop_) ∨
    (s.main.past = true ∧ s'.main.past = true) := by
  unfold RunTasks.step at h
  cases hmain : s.main <;> simp only [hmain] at h
  case join =>
    split_ifs at h
    cases h
    exact .inr (.inr (.inr (.inr ⟨rfl, rfl⟩)))
  case lock =>
    cases h
    exact .inl ⟨rfl, rfl, rfl⟩
  case check =>
    cases h
    exact .inr (.inl ⟨rfl, rfl, rfl⟩)
  case sleep =>
    cases h
    exact .inr (.inr (.inl ⟨rfl, rfl, rfl⟩))
  case asleep =>
    cases h
    exact .inr (.inr (.inr (.inl ⟨rfl, rfl, rfl⟩)))
  case unlock =>
    cases h
    exact .inr (.inr (.inr (.inr ⟨rfl, rfl⟩)))
  case stop =>
    cases h
    exact .inr (.inr (.inr (.inr ⟨rfl, rfl⟩)))
  case done => cases h

/-- **Step lemma** for the main thread. -/
theorem Count.main (h : Count use_complex tasks s) (hstep : RunTasks.step s = some s') :
    Count use_complex tasks s' := by
  obtain ⟨hworkers, hpc, -, hexecuted, hpending, hzeroed⟩ := RunTasks.frame hstep
  have hun : s'.unreported use_complex = s.unreported use_complex := by
    funext i
    rw [State.unreported, State.unreported, hworkers, hpc]
  have hzero : (s'.stop_ = true → s.pending_tasks_ = 0) ∧
      (s'.main.past = true → s.pending_tasks_ = 0) := by
    rcases RunTasks.turn hstep with ⟨-, hm, hs⟩ | ⟨-, hm, hs⟩ | ⟨-, hm, hs⟩ | ⟨-, hm, hs⟩ | ⟨hm, -⟩
    · rw [hm, hs]
      exact ⟨h.stop_, nofun⟩
    · rw [hm, hs]
      refine ⟨h.stop_, fun hpast => ?_⟩
      by_contra hne
      rw [if_neg hne] at hpast
      exact Bool.false_ne_true hpast
    · rw [hm, hs]
      exact ⟨h.stop_, nofun⟩
    · rw [hm, hs]
      exact ⟨h.stop_, nofun⟩
    · exact ⟨fun _ => h.past hm, fun _ => h.past hm⟩
  refine ⟨?_, ?_, ?_, ?_, ?_, ?_, ?_⟩
  · rw [hworkers, hpc]
    exact h.shape
  · rw [hexecuted, hun, hpending]
    exact h.law
  · rw [hzeroed, hpending]
    exact h.zeroed
  · rw [hpc, hzeroed]
    exact h.notify
  · rw [hpending]
    exact hzero.1
  · rw [hpending]
    exact hzero.2
  · rw [hpc, hpending]
    exact h.left

theorem Started.count (hlen : tasks.length < 2 ^ 31) (h : Started use_complex tasks s) :
    Count use_complex tasks s := by
  have hpending : s.pending_tasks_ = tasks.length := by
    rw [h.pending_tasks_]
    exact Int.bmod_eq_of_le (by omega) (by omega)
  have hzero : ¬ (s.pending_tasks_ = 0 ∧ tasks ≠ []) := by
    rintro ⟨hz, hne⟩
    have hpos := List.length_pos_iff.mpr hne
    omega
  have hun : ∀ i, s.unreported use_complex i = 0 := by
    intro i
    rw [State.unreported, h.task_did_ i, h.pc i]
    cases use_complex <;> rfl
  refine ⟨fun i => ?_, ⟨0, ?_, ?_⟩, ?_, fun i hs => ?_, fun hs => ?_, fun hs => ?_, fun i hs => ?_⟩
  · rw [h.task_did_ i, h.pc i]
    cases use_complex with
    | false => exact ⟨fun _ => ⟨rfl, rfl⟩, nofun, nofun⟩
    | true => exact ⟨nofun, fun _ => rfl, nofun⟩
  · rw [h.executed, Finset.sum_eq_zero fun i _ => hun i]
    rfl
  · rw [hpending]
    omega
  · rw [h.zeroed, if_neg hzero]
    rfl
  · rw [h.pc i] at hs
    cases use_complex <;> cases hs
  · rw [h.stop_] at hs
    exact absurd hs Bool.false_ne_true
  · rw [h.main] at hs
    exact absurd hs Bool.false_ne_true
  · rw [h.pc i] at hs
    cases use_complex <;> cases hs

/-- **Run lemma**: every reachable state keeps the law. -/
theorem Reachable.count (hlen : tasks.length < 2 ^ 31) (h : Reachable use_complex tasks s) :
    Count use_complex tasks s := by
  induction h with
  | start hs => exact hs.count hlen
  | step hr hstep ih =>
      cases hstep with
      | worker i ch hstep => exact ih.worker hlen hr.inv (hr.inv.worker hstep) hstep
      | main hstep => exact ih.main hstep

/-! ## every run -/

/-- Nothing is left to do: every task has been executed once, and no queue or
worker holds any. -/
structure Finished (tasks : List τ) (s : State n τ) : Prop where
  executed : (s.executed : Multiset τ) = tasks
  global_queue_ : s.global_queue_ = []
  queue_ : ∀ i, (s.workers i).queue_.count = 0
  buffer_ : ∀ i, (s.workers i).buffer_.count = 0
  execution : ∀ i, (s.pc i).inExecution = 0

theorem Count.finished (h : Count use_complex tasks s) (hinv : Inv tasks s)
    (hzero : s.pending_tasks_ = 0) :
    Finished tasks s ∧ ∀ i, s.unreported use_complex i = 0 := by
  obtain ⟨reported, hexecuted, hpending⟩ := h.law
  have hle := hinv.executed_le
  have htasks := hinv.tasks
  rw [s.tasks_eq] at htasks
  have hall : s.executed.length = tasks.length := by omega
  have hnone : (s.global_queue_ : Multiset τ) + ∑ i, held (s.workers i) (s.pc i) = 0 := by
    have hcard := congrArg Multiset.card htasks
    rw [Multiset.card_add, Multiset.coe_card, Multiset.coe_card, hall] at hcard
    exact Multiset.card_eq_zero.mp (by omega)
  rw [hnone, zero_add] at htasks
  have hglobal : (s.global_queue_ : Multiset τ) = 0 :=
    Multiset.le_zero.mp (hnone ▸ Multiset.le_add_right _ _)
  have hsum : ∑ i, held (s.workers i) (s.pc i) = 0 :=
    Multiset.le_zero.mp (hnone ▸ Multiset.le_add_left _ _)
  have hheld : ∀ i, held (s.workers i) (s.pc i) = 0 := by
    intro i
    rw [← Finset.add_sum_erase _ _ (Finset.mem_univ i)] at hsum
    exact Multiset.le_zero.mp (hsum ▸ Multiset.le_add_right _ _)
  have hqueue : ∀ i, (s.workers i).queue_.list = [] := fun i =>
    (Multiset.coe_eq_zero _).mp (Multiset.le_zero.mp
      (hheld i ▸ (Multiset.le_add_right _ _).trans (Multiset.le_add_right _ _)))
  have hbuffer : ∀ i, (s.workers i).buffer_.list = [] := fun i =>
    (Multiset.coe_eq_zero _).mp (Multiset.le_zero.mp
      (hheld i ▸ (Multiset.le_add_left _ _).trans (Multiset.le_add_right _ _)))
  refine ⟨⟨htasks, (Multiset.coe_eq_zero _).mp hglobal, fun i => ?_, fun i => ?_, fun i => ?_⟩,
    fun i => ?_⟩
  · rw [(hinv.fits i).inRing.count_eq kQueueSize_lt, hqueue i]
    rfl
  · rw [(hinv.fits i).inBuffer.count_eq kMaxBufferSize_lt, hbuffer i]
    rfl
  · exact Multiset.le_zero.mp (hheld i ▸ Multiset.le_add_left _ _)
  · have hu := @unreported_le n τ use_complex s i
    omega

/-- `pending_tasks_` counts the tasks not executed and those not yet reported,
and at zero everything is finished. -/
structure Accounted (use_complex : Bool) (tasks : List τ) (s : State n τ) : Prop where
  executed_le : s.executed.length ≤ tasks.length
  pending : s.pending_tasks_ =
    ((tasks.length - s.executed.length + ∑ i, s.unreported use_complex i : Nat) : Int)
  nonneg : 0 ≤ s.pending_tasks_
  zeroed : s.zeroed.length = if s.pending_tasks_ = 0 then 1 else 0
  finished : s.pending_tasks_ = 0 → Finished tasks s
  past : s.main.past = true → s.pending_tasks_ = 0
  left : ∀ i, s.pc i = .left → s.pending_tasks_ = 0 ∧ (s.workers i).task_did_ = 0

/-- **`pending_tasks_` is exact** in every reachable state: so it is never
negative, one `fetch_sub` reaches zero, and at zero every task has been executed
once and nothing is left; only then do workers leave, with nothing to report. -/
theorem pending_exact (tasks : List τ) (hne : tasks ≠ []) (hlen : tasks.length < 2 ^ 31)
    (s : State n τ) (hs : Reachable use_complex tasks s) : Accounted use_complex tasks s := by
  have h := hs.count hlen
  have hzeroed := h.zeroed
  simp only [and_iff_left hne] at hzeroed
  have hinv := hs.inv
  have hle := hinv.executed_le
  obtain ⟨reported, hexecuted, hpending⟩ := h.law
  refine ⟨hle, ?_, ?_, hzeroed, fun hz => (h.finished hinv hz).1, h.past, fun i hi => ?_⟩
  · rw [hpending]
    omega
  · rw [hpending]
    omega
  · have hun := (h.finished hinv (h.left i hi)).2 i
    rw [State.unreported, hi] at hun
    exact ⟨h.left i hi, hun⟩

/-- Worker 0 fetches two of three tasks, executes them and reports them; worker 1 has executed
the third. -/
theorem pending_exact_reported : ∃ s : State 2 Nat,
    (s.executed, s.pending_tasks_, (s.workers 0).task_did_, (s.workers 1).task_did_) =
      ([1, 2, 3], 1, 2, 1) ∧ Accounted true [1, 2, 3] s := by
  have hplay : (play true anyStep (start true [1, 2, 3] 0)
      (List.replicate 11 (some (0, ⟨true, true, 1⟩)) ++ List.replicate 10 (some (0, ⟨false, true, 1⟩)) ++
        List.replicate 8 (some (1, ⟨true, true, 0⟩)))).map (fun s : State 2 Nat =>
      (s.executed, s.pending_tasks_, (s.workers 0).task_did_, (s.workers 1).task_did_)) =
      some ([1, 2, 3], 1, 2, 1) := by
    decide +kernel
  obtain ⟨s, hs, hfields⟩ := Option.map_eq_some_iff.mp hplay
  exact ⟨s, hfields, pending_exact [1, 2, 3] (List.cons_ne_nil _ _) (by decide) s
    (reachable_play (.start (started_start true [1, 2, 3] 0)) hs)⟩

end Scheduler

end ServerStudy
