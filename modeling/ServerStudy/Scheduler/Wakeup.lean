import Mathlib.Tactic.FinCases
import ServerStudy.Scheduler.Count

/-!
# ServerStudy.Scheduler.Wakeup

The wait of `RunTasks` for the last task.  `notify_one` is called without
`ctx.mtx_`, so it can come between the predicate, which was false, and the wait,
and then nobody is there to be woken.

* `wakes` — as long as that does not happen, the main thread is never asleep
  with nothing left to wake it;
* `sleeps_on` — it can happen, and the main thread then sleeps on.
-/

namespace ServerStudy

namespace Scheduler

variable {n : Nat} {τ : Type} {use_complex : Bool} {tasks : List τ} {s s' : State n τ}

/-- The main thread is asleep, the last task is counted, and no worker is about
to call `notify_one`. -/
structure Lost (s : State n τ) : Prop where
  zero : s.pending_tasks_ = 0
  asleep : s.main = .asleep
  silent : ∀ i, s.pc i ≠ .notify

/-- A step that is not a `notify_one` between the main thread's predicate, which
was false, and its going to sleep. -/
def Heard (s s' : State n τ) : Prop :=
  ∀ i, s.pc i = .notify → s'.pc i ≠ .notify → s.main ≠ .sleep

/-- Reached by such steps alone. -/
inductive HeardReachable (use_complex : Bool) (tasks : List τ) : State n τ → Prop where
  | start {s : State n τ} : Started use_complex tasks s → HeardReachable use_complex tasks s
  | step {s s' : State n τ} : HeardReachable use_complex tasks s → Step use_complex s s' →
      Heard s s' → HeardReachable use_complex tasks s'

theorem HeardReachable.reachable (h : HeardReachable use_complex tasks s) :
    Reachable use_complex tasks s := by
  induction h with
  | start hs => exact .start hs
  | step _ hstep _ ih => exact .step ih hstep

/-- Whoever sleeps, or is about to, will be notified of the last task. -/
def Awaited (s : State n τ) : Prop :=
  s.pending_tasks_ = 0 → s.main = .sleep ∨ s.main = .asleep → ∃ i, s.pc i = .notify

theorem Started.awaited (h : Started use_complex tasks s) : Awaited s := by
  intro _ hmain
  rw [h.main] at hmain
  rcases hmain with hm | hm
  · cases hm
  · cases hm

/-- **Step lemma** for the workers. -/
theorem Awaited.worker (hlen : tasks.length < 2 ^ 31) (h : Awaited s)
    (hs : Reachable use_complex tasks s) {i : Fin n} {ch : Choice n}
    (hstep : Worker.step use_complex i ch s = .ok (some s')) (hheard : Heard s s') :
    Awaited s' := by
  have hcount := hs.count hlen
  have hcount' := (hs.step (.worker i ch hstep)).count hlen
  have ht := hcount.turn hlen hs.inv hstep
  intro hzero hmain
  -- a worker that was about to notify, and was not `i`, still is
  have hother : s.pc i ≠ .notify → (∃ j, s.pc j = .notify) → ∃ j, s'.pc j = .notify := by
    rintro hi ⟨j, hj⟩
    have hji : j ≠ i := fun he => hi (he ▸ hj)
    exact ⟨j, (ht.others j hji).1.trans hj⟩
  cases ht.tally with
  | quiet hold _ hp _ _ hm _ => exact hother hold (h (hp ▸ hzero) (hm ▸ hmain))
  | execute task hold _ hp _ _ hm _ => exact hother hold (h (hp ▸ hzero) (hm ▸ hmain))
  | notify hold hnew hp _ _ hm _ =>
      have hsleep : s.main = .sleep := by
        rw [hm] at hmain
        split_ifs at hmain with hasleep
        · rcases hmain with hm | hm
          · cases hm
          · cases hm
        · exact hmain.resolve_right hasleep
      exact absurd hsleep (hheard i hold hnew)
  | report _ hpos _ _ _ _ hz =>
      have hne : s.pending_tasks_ ≠ 0 := fun h0 =>
        absurd ((hcount.finished hs.inv h0).2 i) (Nat.pos_iff_ne_zero.mp hpos)
      have hsome : tasks ≠ [] := by
        rintro rfl
        obtain ⟨reported, hexecuted, -⟩ := hcount.law
        have hle := hs.inv.executed_le
        have hu := @unreported_le n τ use_complex s i
        rw [List.length_nil] at hle
        omega
      have hbefore := hcount.zeroed
      have hafter := hcount'.zeroed
      rw [if_neg fun h0 => hne h0.1] at hbefore
      rw [if_pos ⟨hzero, hsome⟩] at hafter
      split_ifs at hz
      · exact ⟨i, hz.2⟩
      · rw [hz.1] at hafter
        omega

/-- **Step lemma** for the main thread. -/
theorem Awaited.main (h : Awaited s) (hstep : RunTasks.step s = some s') : Awaited s' := by
  obtain ⟨-, hpc, -, -, hpending, -⟩ := RunTasks.frame hstep
  intro hzero hmain
  rw [hpc]
  rw [hpending] at hzero
  rcases RunTasks.turn hstep with ⟨-, hm, -⟩ | ⟨-, hm, -⟩ | ⟨hs, -, -⟩ | ⟨-, hm, -⟩ | ⟨-, hm⟩
  · rw [hm] at hmain
    simp at hmain
  · rw [hm, if_pos hzero] at hmain
    simp at hmain
  · exact h hzero (.inl hs)
  · rw [hm] at hmain
    simp at hmain
  · rcases hmain with hmain | hmain
    · rw [hmain] at hm
      cases hm
    · rw [hmain] at hm
      cases hm

/-- **Run lemma**. -/
theorem HeardReachable.awaited (hlen : tasks.length < 2 ^ 31)
    (h : HeardReachable use_complex tasks s) : Awaited s := by
  induction h with
  | start hs => exact hs.awaited
  | step hr hstep hheard ih =>
      cases hstep with
      | worker i ch hstep => exact ih.worker hlen hr.reachable hstep hheard
      | main hstep => exact ih.main hstep

/-- One worker notifies, after the last `fetch_sub`. -/
theorem Count.notify_unique (h : Count use_complex tasks s) {i j : Fin n}
    (hi : s.pc i = .notify) (hj : s.pc j = .notify) : s.pending_tasks_ = 0 ∧ j = i := by
  have hzi := h.notify i hi
  have hzj := h.notify j hj
  have hlen := h.zeroed
  split_ifs at hlen with hz
  · obtain ⟨k, hk⟩ := List.length_eq_one_iff.mp hlen
    rw [hk, List.mem_singleton] at hzi hzj
    exact ⟨hz.1, hzj.trans hzi.symm⟩
  · rw [List.eq_nil_of_length_eq_zero hlen] at hzi
    exact absurd hzi List.not_mem_nil

/-- After any other step the main thread may go to sleep for good. -/
theorem lost_of_not_heard (hlen : tasks.length < 2 ^ 31) (hs : Reachable use_complex tasks s)
    (hstep : Step use_complex s s') (hheard : ¬ Heard s s') :
    ∃ s'', Step use_complex s' s'' ∧ Lost s'' := by
  simp only [Heard, not_forall, not_not] at hheard
  obtain ⟨i, hold, hnew, hsleep⟩ := hheard
  have hcount := hs.count hlen
  cases hstep with
  | main hstep =>
      obtain ⟨-, hpc, -, -, -, -⟩ := RunTasks.frame hstep
      rw [hpc] at hnew
      exact absurd hold hnew
  | worker j ch hstep =>
      have ht := hcount.turn hlen hs.inv hstep
      have hji : i = j := by
        by_contra hne
        exact hnew ((ht.others i hne).1.trans hold)
      subst hji
      cases ht.tally with
      | quiet h => exact absurd hold h
      | execute _ h => exact absurd hold h
      | report h => exact nomatch hold.symm.trans h
      | notify _ _ hp _ _ hm _ =>
          have hmain : s'.main = .sleep := by
            rw [hm, hsleep]
            rfl
          refine ⟨{ s' with main := .asleep }, .main ?_, ?_, rfl, fun j hj => ?_⟩
          · rw [RunTasks.step, hmain]
          · exact hp.trans (hcount.notify_unique hold hold).1
          · by_cases hji : j = i
            · subst hji
              exact hnew hj
            · have hj' : s'.pc j = .notify := hj
              rw [(ht.others j hji).1] at hj'
              exact hji (hcount.notify_unique hold hj').2

/-! ## every run -/

/-- **No wakeup is lost but in one order of steps**: in a run with no
`notify_one` between a false predicate and the wait that follows it, the main
thread is never asleep with nothing left to wake it; and after a `notify_one` in
that place it can be at once. -/
theorem wakes (tasks : List τ) (hlen : tasks.length < 2 ^ 31) :
    (∀ s : State n τ, HeardReachable use_complex tasks s → ¬ Lost s) ∧
    ∀ s s' : State n τ, Reachable use_complex tasks s → Step use_complex s s' → ¬ Heard s s' →
      ∃ s'', Step use_complex s' s'' ∧ Lost s'' := by
  refine ⟨fun s hs hlost => ?_, fun s s' hs hstep hheard => lost_of_not_heard hlen hs hstep hheard⟩
  obtain ⟨i, hi⟩ := hs.awaited hlen hlost.zero (.inr hlost.asleep)
  exact hlost.silent i hi

/-- Whether a worker is about to call `notify_one`. -/
def Pc.isNotify : Pc n τ → Bool
  | .notify => true
  | _ => false

theorem Pc.isNotify_iff (pc : Pc n τ) : pc.isNotify = true ↔ pc = .notify := by
  cases pc <;> simp [Pc.isNotify]

instance : DecidableRel (Heard : State n τ → State n τ → Prop) := fun s s' =>
  decidable_of_iff
    (∀ i, (s.pc i).isNotify = true → (s'.pc i).isNotify = false → s.main ≠ .sleep) <| by
      simp only [Heard, ← Bool.not_eq_true, Pc.isNotify_iff, ne_eq]

/-- The worker's turns, with locks that are free and worker 1 as the victim. -/
def turns (k : Nat) : List (Option (Fin 2 × Choice 2)) :=
  List.replicate k (some (0, ⟨true, true, 1⟩))

/-- The main thread goes to sleep before one of two workers reports the one task, and is
notified; were it not asleep yet, the notification would be lost. -/
theorem wakes_two :
    (∃ s : State 2 Nat, HeardReachable true [1] s ∧ (s.pending_tasks_, s.main) = (0, .lock) ∧
      ¬ Lost s) ∧
    ∃ s s' s'' : State 2 Nat, Reachable true [1] s ∧ Step true s s' ∧ ¬ Heard s s' ∧
      Step true s' s'' ∧ Lost s'' := by
  have hheard : ((play true Heard (start true [1] 0)
      ([none, none, none] ++ turns 20)).map fun s : State 2 Nat => (s.pending_tasks_, s.main)) =
      some (0, .lock) := by
    decide +kernel
  have hlost : ((play true anyStep (start true [1] 0) (turns 17 ++ [none, none] ++ turns 1)).bind
      fun s : State 2 Nat => (play true anyStep s (turns 1)).map fun s' =>
        ((s.pc 0).isNotify, (s'.pc 0).isNotify, s.main)) = some (true, false, .sleep) := by
    decide +kernel
  obtain ⟨s, hs, hfields⟩ := Option.map_eq_some_iff.mp hheard
  have hreach : HeardReachable true [1] s :=
    play_induction (fun _ _ hr hstep hok => hr.step hstep hok) (.start (started_start true [1] 0)) hs
  refine ⟨⟨s, hreach, hfields, (wakes [1] (by decide)).1 s hreach⟩, ?_⟩
  obtain ⟨s, hs, h⟩ := Option.bind_eq_some_iff.mp hlost
  obtain ⟨s', hs', hfields⟩ := Option.map_eq_some_iff.mp h
  simp only [Prod.mk.injEq] at hfields
  obtain ⟨hold, hnew, hmain⟩ := hfields
  have hstep : Step true s s' := by
    simp only [turns, List.replicate_one, play, anyStep] at hs'
    split at hs'
    · obtain rfl := Option.some.inj hs'
      exact .worker _ _ ‹_›
    · cases hs'
  have hnot : ¬ Heard s s' := fun hheard =>
    hheard 0 ((Pc.isNotify_iff _).mp hold) (fun h => by simp [h, Pc.isNotify] at hnew) hmain
  have hr := reachable_play (.start (started_start true [1] 0)) hs
  obtain ⟨s'', hstep', hlost⟩ := (wakes [1] (by decide)).2 s s' hr hstep hnot
  exact ⟨s, s', s'', hr, hstep, hnot, hstep', hlost⟩

/-! ## a lost wakeup -/

/-- **A wakeup is lost**: one of two workers fetches and executes the one task;
the main thread finds the predicate false; the worker reports and notifies; the
main thread goes to sleep. -/
theorem sleeps_on : ∃ s : State 2 Nat, Reachable true [1] s ∧ Lost s := by
  have hrun : (play true anyStep (start true [1] 0) (turns 17 ++ [none, none] ++ turns 2 ++ [none])).map
      (fun s => (s.pending_tasks_, s.main, (s.pc 0).isNotify, (s.pc 1).isNotify)) =
      some (0, .asleep, false, false) := by
    decide +kernel
  obtain ⟨s, hs, hfields⟩ := Option.map_eq_some_iff.mp hrun
  simp only [Prod.mk.injEq] at hfields
  obtain ⟨hzero, hmain, h0, h1⟩ := hfields
  refine ⟨s, reachable_play (.start (started_start true [1] 0)) hs, hzero, hmain, fun i hi => ?_⟩
  have hsilent : (s.pc i).isNotify = false := by
    fin_cases i
    · exact h0
    · exact h1
  rw [hi] at hsilent
  exact Bool.noConfusion hsilent

end Scheduler

end ServerStudy
