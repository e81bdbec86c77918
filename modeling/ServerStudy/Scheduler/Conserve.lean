import Mathlib.Algebra.BigOperators.Fin
import Mathlib.Data.Multiset.AddSub
import ServerStudy.Scheduler

/-!
# ServerStudy.Scheduler.Conserve

No task is lost or duplicated, whatever the workers do in whatever order.

* `tryFetchGlobal_ok`, `tryStealFrom_ok`, `fillBuffer_spec` — what each critical
  section moves;
* `Inv.step` — every statement of every thread keeps the tasks there are, and
  the queues within their arrays;
* `conserves` — and so does every run.
-/

namespace ServerStudy

namespace Scheduler

variable {n : Nat} {τ : Type} {use_complex : Bool}

theorem dvd_kQueueSize_ : kQueueSize_ ∣ 2 ^ 64 := by decide

theorem dvd_kMaxBufferSize_ : kMaxBufferSize_ ∣ 2 ^ 64 := by decide

theorem kQueueSize_lt : kQueueSize_ < 2 ^ 64 := by decide

theorem kMaxBufferSize_lt : kMaxBufferSize_ < 2 ^ 64 := by decide

/-! ## the critical sections -/

section Sections

variable {g g' : List τ} {q q' : Ring kQueueSize_ τ} {l m : List τ} {w w' : Worker τ}
  {cnt batch_size : Nat} {owns localOwns : Bool}

/-- The loop of `TryFetchGlobal` moves the first `cnt`, when there are so many
and there is room for them. -/
theorem fetch_eq (hq : q.Holds l) (hcnt : cnt ≤ g.length) (hroom : l.length + cnt ≤ kQueueSize_) :
    ∃ q', fetch cnt g q = .ok (g.drop cnt, q') ∧ q'.Holds (l ++ g.take cnt) := by
  induction cnt generalizing g q l with
  | zero =>
      refine ⟨q, rfl, ?_⟩
      rw [List.take_zero, List.append_nil]
      exact hq
  | succ cnt ih =>
      cases g with
      | nil => exact absurd hcnt (Nat.not_succ_le_zero cnt)
      | cons task g =>
          have hpush : (q.push task).Holds (l ++ [task]) := hq.push dvd_kQueueSize_ (by omega)
          obtain ⟨q', hfetch, hq'⟩ := ih hpush (Nat.le_of_succ_le_succ hcnt)
            (by rw [List.length_append, List.length_singleton]; omega)
          rw [List.append_assoc] at hq'
          exact ⟨q', hfetch, hq'⟩

/-- Past the end of the global queue it has no defined behaviour. -/
theorem fetch_error (hcnt : g.length < cnt) : fetch cnt g q = .error .emptyDeque := by
  induction cnt generalizing g q with
  | zero => exact absurd hcnt (Nat.not_lt_zero _)
  | succ cnt ih =>
      cases g with
      | nil => rfl
      | cons task g => exact ih (Nat.lt_of_succ_lt_succ hcnt)

theorem fetchCount_le (hq : w.queue_.Holds l) :
    l.length + fetchCount n g w batch_size ≤ kQueueSize_ := by
  have hfits := hq.fits
  have hlt := kQueueSize_lt
  rw [fetchCount, hq.count_eq kQueueSize_lt, sub64_of_le hfits hlt]
  omega

/-- **`TryFetchGlobal`**: some of the first tasks move to the end of the ring. -/
theorem tryFetchGlobal_ok (hq : w.queue_.Holds l)
    (h : tryFetchGlobal owns localOwns n g w batch_size = .ok (cnt, g', w')) :
    cnt ≤ g.length ∧ g' = g.drop cnt ∧ w' = { w with queue_ := w'.queue_ } ∧
      w'.queue_.Holds (l ++ g.take cnt) := by
  have hnone : (Except.ok (0, g, w) : Except Undefined _) = .ok (cnt, g', w') →
      cnt ≤ g.length ∧ g' = g.drop cnt ∧ w' = { w with queue_ := w'.queue_ } ∧
        w'.queue_.Holds (l ++ g.take cnt) := by
    intro he
    cases he
    rw [List.take_zero, List.append_nil]
    exact ⟨Nat.zero_le _, rfl, rfl, hq⟩
  unfold tryFetchGlobal at h
  split_ifs at h
  · exact hnone h
  · exact hnone h
  · dsimp only at h
    have hroom : l.length + fetchCount n g w batch_size ≤ kQueueSize_ := fetchCount_le hq
    generalize fetchCount n g w batch_size = k at h hroom
    by_cases hcnt : k ≤ g.length
    · obtain ⟨q', hfetch, hq'⟩ := fetch_eq hq hcnt hroom
      rw [hfetch] at h
      cases h
      exact ⟨hcnt, rfl, rfl, hq'⟩
    · rw [fetch_error (Nat.lt_of_not_le hcnt)] at h
      cases h

/-- With two workers or more it never looks past the end of the global queue. -/
theorem tryFetchGlobal_ne_error (hn : 2 ≤ n) (hq : w.queue_.Holds l) (e : Undefined) :
    tryFetchGlobal owns localOwns n g w batch_size ≠ .error e := by
  intro h
  unfold tryFetchGlobal at h
  split_ifs at h with hempty
  have hpos : 0 < g.length := by
    cases g with
    | nil => simp at hempty
    | cons task g => exact Nat.zero_lt_succ _
  have hhalf : g.length / n ≤ g.length / 2 := Nat.div_le_div_left hn (by decide)
  have hcnt : fetchCount n g w batch_size ≤ g.length := by
    unfold fetchCount
    omega
  obtain ⟨q', hfetch, -⟩ := fetch_eq hq hcnt (fetchCount_le hq)
  dsimp only at h
  rw [hfetch] at h
  cases h

theorem fillBuffer_eq (hq : w.queue_.Holds l) :
    fillBuffer w batch_size = (min l.length batch_size,
      { w with
        queue_ := (Ring.transfer (min l.length batch_size) w.queue_ w.buffer_).1
        buffer_ := (Ring.transfer (min l.length batch_size) w.queue_ w.buffer_).2 }) := by
  unfold fillBuffer
  rw [hq.count_eq kQueueSize_lt]

/-- **`FillBuffer`**: up to 64 tasks move from the ring to an empty buffer. -/
theorem fillBuffer_spec (hq : w.queue_.Holds l) (hb : w.buffer_.Holds []) :
    ∃ k src dst, k = min l.length 64 ∧
      fillBuffer w 64 = (k, { w with queue_ := src, buffer_ := dst }) ∧
      src.Holds (l.drop k) ∧ dst.Holds (l.take k) := by
  have hfill := @fillBuffer_eq τ l w 64 hq
  obtain ⟨k, hk⟩ : ∃ k, k = min l.length 64 := ⟨_, rfl⟩
  rw [← hk] at hfill
  have hroom : ([] : List τ).length + k ≤ kMaxBufferSize_ := by
    rw [List.length_nil, Nat.zero_add, hk]
    exact Nat.min_le_right _ _
  have hmove := hq.transfer dvd_kQueueSize_ dvd_kMaxBufferSize_ hb (hk ▸ Nat.min_le_left _ _) hroom
  exact ⟨k, _, _, hk, hfill, hmove.1, hmove.2⟩

theorem getNextTask_nil (hb : w.buffer_.Holds []) : getNextTask w = (none, w) :=
  if_neg (by rw [hb.count_eq kMaxBufferSize_lt]; exact Nat.lt_irrefl 0)

/-- **`GetNextTask`**: the first task of the buffer. -/
theorem getNextTask_cons {task : τ} (hb : w.buffer_.Holds (task :: l)) :
    getNextTask w = (some task, { w with buffer_ := w.buffer_.shift }) ∧
      w.buffer_.shift.Holds l := by
  refine ⟨?_, hb.shift dvd_kMaxBufferSize_⟩
  rw [getNextTask, if_pos (by rw [hb.count_eq kMaxBufferSize_lt]; exact Nat.zero_lt_succ _),
    hb.front_eq]

theorem stealCount_le {victim : Worker τ} (hv : victim.queue_.Holds m) (hq : w.queue_.Holds l) :
    stealCount victim w batch_size ≤ m.length ∧
      l.length + stealCount victim w batch_size ≤ kQueueSize_ := by
  have hfits := hq.fits
  have hfits' := hv.fits
  have hlt := kQueueSize_lt
  have hsize : kQueueSize_ = 512 := rfl
  rw [stealCount, hq.count_eq kQueueSize_lt, hv.count_eq kQueueSize_lt, sub64_of_le hfits hlt,
    add64_of_lt (by omega)]
  omega

/-- **`TryStealFrom`**: nothing happens, or some of the first tasks of another
worker's ring move to the end of one's own. -/
theorem tryStealFrom_ok {workers workers' : Fin n → Worker τ} {i v : Fin n}
    (hq : (workers i).queue_.Holds l) (hv : (workers v).queue_.Holds m)
    (h : tryStealFrom owns localOwns workers i v batch_size = .ok (cnt, workers')) :
    cnt = 0 ∧ workers' = workers ∨
    i ≠ v ∧ m ≠ [] ∧ ∃ src dst, src.Holds (m.drop cnt) ∧ dst.Holds (l ++ m.take cnt) ∧
      workers' = Function.update (Function.update workers v { workers v with queue_ := src })
        i { workers i with queue_ := dst } := by
  have hnone : (Except.ok (0, workers) : Except Undefined _) = .ok (cnt, workers') →
      cnt = 0 ∧ workers' = workers := by
    intro he
    cases he
    exact ⟨rfl, rfl⟩
  unfold tryStealFrom at h
  split_ifs at h with hempty hself hlocal
  · exact .inl (hnone h)
  · exact .inl (hnone h)
  · right
    dsimp only at h
    obtain ⟨hcnt, hroom⟩ := @stealCount_le τ l m (workers i) batch_size (workers v) hv hq
    generalize stealCount (workers v) (workers i) batch_size = k at h hcnt hroom
    have hmove := hv.transfer dvd_kQueueSize_ dvd_kQueueSize_ hq hcnt hroom
    cases h
    refine ⟨hself, ?_, _, _, hmove.1, hmove.2, rfl⟩
    rintro rfl
    have hcount := hv.count_eq kQueueSize_lt
    simp [hcount] at hempty

/-- A worker may steal from any other. -/
theorem tryStealFrom_ne_error {workers : Fin n → Worker τ} {i v : Fin n} (hiv : i ≠ v)
    (e : Undefined) : tryStealFrom owns localOwns workers i v batch_size ≠ .error e := by
  intro h
  unfold tryStealFrom at h
  split_ifs at h

end Sections

/-! ## the tasks there are -/

/-- The task a worker is executing. -/
def Pc.inExecution : Pc n τ → Multiset τ
  | .execute task => {task}
  | _ => 0

theorem inExecution_execute (task : τ) : (Pc.execute task : Pc n τ).inExecution = {task} := rfl

/-- The tasks in the global queue, in all rings, in all buffers, in execution
and executed. -/
def State.tasks (s : State n τ) : Multiset τ :=
  ↑s.global_queue_ + ∑ i, ((s.workers i).queue_.list : Multiset τ) +
    ∑ i, ((s.workers i).buffer_.list : Multiset τ) + ∑ i, (s.pc i).inExecution + ↑s.executed

/-- What one worker holds. -/
def held (w : Worker τ) (pc : Pc n τ) : Multiset τ :=
  ↑w.queue_.list + ↑w.buffer_.list + pc.inExecution

theorem State.tasks_eq (s : State n τ) :
    s.tasks = ↑s.global_queue_ + ∑ i, held (s.workers i) (s.pc i) + ↑s.executed := by
  simp only [State.tasks, held, Finset.sum_add_distrib, add_assoc]

/-- Two sums over all workers that differ in one of them. -/
theorem sum_add_of_eq {M : Type} [AddCommMonoid M] {f g : Fin n → M} (i : Fin n)
    (h : ∀ j, j ≠ i → f j = g j) : ∑ j, f j + g i = ∑ j, g j + f i := by
  rw [← Finset.add_sum_erase _ f (Finset.mem_univ i), ← Finset.add_sum_erase _ g (Finset.mem_univ i),
    Finset.sum_congr rfl fun j hj => h j (Finset.ne_of_mem_erase hj)]
  ac_rfl

/-- Whether a worker is looking for tasks, with nothing in its own ring. -/
def Pc.searching : Pc n τ → Bool
  | .tryFetchGlobal | .tryStealAny _ | .peek _ _ _ | .tryStealFrom _ _ => true
  | _ => false

/-- Worker `i` with these fields may be at `pc`. -/
structure Fits (i : Fin n) (w : Worker τ) (pc : Pc n τ) : Prop where
  queue : ∃ l, w.queue_.Holds l
  buffer : ∃ l, w.buffer_.Holds l
  drained : pc = .fillBuffer → w.buffer_.Holds []
  searching : pc.searching = true → w.queue_.Holds []
  peek : ∀ k tail, pc = .peek k i tail → sub64 tail w.queue_.head = 0
  victim : ∀ k v, pc = .tryStealFrom k v → v ≠ i

/-- Every worker is where it may be, and the tasks are those of the start. -/
structure Inv (tasks : List τ) (s : State n τ) : Prop where
  fits : ∀ i, Fits i (s.workers i) (s.pc i)
  tasks : s.tasks = tasks


/-! ## a step -/

variable {tasks : List τ} {s s' : State n τ} {i : Fin n} {w : Worker τ} {pc : Pc n τ}

theorem Fits.inRing (h : Fits i w pc) : w.queue_.Holds w.queue_.list := by
  obtain ⟨l, hl⟩ := h.queue
  rw [hl.list_eq kQueueSize_lt]
  exact hl

theorem Fits.inBuffer (h : Fits i w pc) : w.buffer_.Holds w.buffer_.list := by
  obtain ⟨l, hl⟩ := h.buffer
  rw [hl.list_eq kMaxBufferSize_lt]
  exact hl

/-- At a statement that says nothing about the queues. -/
theorem Fits.plain {q : Ring kQueueSize_ τ} {b : Ring kMaxBufferSize_ τ} {d : Nat} {l m : List τ}
    (hq : q.Holds l) (hb : b.Holds m) (hdrained : pc = .fillBuffer → m = [])
    (hsearching : pc.searching = false) : Fits i ⟨q, b, d⟩ pc where
  queue := ⟨l, hq⟩
  buffer := ⟨m, hb⟩
  drained hpc := hdrained hpc ▸ hb
  searching h := absurd h (by rw [hsearching]; exact Bool.false_ne_true)
  peek k tail hpc := by
    subst hpc
    exact Bool.noConfusion hsearching
  victim k v hpc := by
    subst hpc
    exact Bool.noConfusion hsearching

/-- One worker's fields and statement change, and it holds what it held but for
what it took off the global queue or executed. -/
theorem Inv.put (h : Inv tasks s) (hfits : Fits i w pc)
    (hworkers : s'.workers = Function.update s.workers i w)
    (hpc : s'.pc = Function.update s.pc i pc)
    (hheld : ↑s'.global_queue_ + held w pc + ↑s'.executed =
      (↑s.global_queue_ + held (s.workers i) (s.pc i) + ↑s.executed : Multiset τ)) :
    Inv tasks s' := by
  refine ⟨fun j => ?_, ?_⟩
  · rw [hworkers, hpc]
    by_cases hj : j = i
    · subst hj
      rw [Function.update_self, Function.update_self]
      exact hfits
    · rw [Function.update_of_ne hj, Function.update_of_ne hj]
      exact h.fits j
  · have hsum := sum_add_of_eq (f := fun j => held (s'.workers j) (s'.pc j))
      (g := fun j => held (s.workers j) (s.pc j)) i fun j hj => by
        rw [hworkers, hpc, Function.update_of_ne hj, Function.update_of_ne hj]
    have hnew : held (s'.workers i) (s'.pc i) = held w pc := by
      rw [hworkers, hpc, Function.update_self, Function.update_self]
    rw [hnew] at hsum
    rw [← h.tasks, s.tasks_eq, s'.tasks_eq]
    refine add_right_cancel (b := held (s.workers i) (s.pc i)) ?_
    calc _ = ↑s'.global_queue_ + ↑s'.executed +
          (∑ j, held (s'.workers j) (s'.pc j) + held (s.workers i) (s.pc i)) := by ac_rfl
      _ = (↑s'.global_queue_ + held w pc + ↑s'.executed) +
          ∑ j, held (s.workers j) (s.pc j) := by
        rw [hsum]
        ac_rfl
      _ = _ := by
        rw [hheld]
        ac_rfl

/-- A worker goes on to another statement and nothing else changes. -/
theorem Inv.goto (h : Inv tasks s) (hfits : Fits i (s.workers i) pc)
    (hworkers : s'.workers = s.workers) (hpc : s'.pc = Function.update s.pc i pc)
    (hglobal : s'.global_queue_ = s.global_queue_) (hexecuted : s'.executed = s.executed)
    (hold : (s.pc i).inExecution = 0) (hnew : pc.inExecution = 0) : Inv tasks s' := by
  refine h.put hfits ?_ hpc ?_
  · rw [hworkers, Function.update_eq_self]
  · rw [held, held, hold, hnew, hglobal, hexecuted]

theorem Fits.elsewhere (h : Fits i w pc) {pc' : Pc n τ} (hdrained : pc' ≠ .fillBuffer)
    (hsearching : pc'.searching = false) : Fits i w pc' :=
  .plain h.inRing h.inBuffer (fun he => absurd he hdrained) hsearching

/-- A thief takes tasks off the front of a ring that is not empty, so its owner
is not looking for tasks. -/
theorem Fits.robbed {v : Fin n} {q : Ring kQueueSize_ τ} {l : List τ} (h : Fits v w pc)
    (hne : w.queue_.list ≠ []) (hq : q.Holds l) : Fits v { w with queue_ := q } pc := by
  have hbusy : pc.searching = false := by
    cases hpc : pc.searching with
    | false => rfl
    | true => exact absurd ((h.searching hpc).list_eq kQueueSize_lt) hne
  exact .plain hq h.inBuffer (fun he => (h.drained he).list_eq kMaxBufferSize_lt) hbusy

theorem Inv.steal (h : Inv tasks s) {v : Fin n} {k cnt : Nat} {src dst : Ring kQueueSize_ τ}
    (hiv : i ≠ v) (hpc : s.pc i = .tryStealFrom k v) (hne : (s.workers v).queue_.list ≠ [])
    (hsrc : src.Holds ((s.workers v).queue_.list.drop cnt))
    (hdst : dst.Holds ((s.workers i).queue_.list ++ (s.workers v).queue_.list.take cnt))
    (hfits : Fits i { s.workers i with queue_ := dst } pc) (hnew : pc.inExecution = 0) :
    Inv tasks ({ s with workers := Function.update (Function.update s.workers v
      { s.workers v with queue_ := src }) i { s.workers i with queue_ := dst } }.goto i pc) := by
  refine ⟨fun j => ?_, ?_⟩
  · simp only [State.goto]
    by_cases hj : j = i
    · subst hj
      rw [Function.update_self, Function.update_self]
      exact hfits
    · rw [Function.update_of_ne hj, Function.update_of_ne hj]
      by_cases hjv : j = v
      · subst hjv
        rw [Function.update_self]
        exact (h.fits j).robbed hne hsrc
      · rw [Function.update_of_ne hjv]
        exact h.fits j
  · let f := fun j => held (s.workers j) (s.pc j)
    let robbed := Function.update s.workers v { s.workers v with queue_ := src }
    let f' := fun j => held (robbed j) (s.pc j)
    let f'' := fun j => held (Function.update robbed i { s.workers i with queue_ := dst } j)
      (Function.update s.pc i pc j)
    have hsum := sum_add_of_eq (f := f') (g := f) v fun j hj => by
      simp only [f', f, robbed, Function.update_of_ne hj]
    have hsum' := sum_add_of_eq (f := f'') (g := f') i fun j hj => by
      simp only [f'', f', Function.update_of_ne hj]
    have hf : f' v = held { s.workers v with queue_ := src } (s.pc v) := by
      simp only [f', robbed, Function.update_self]
    have hf' : f' i = f i := by
      simp only [f', f, robbed, Function.update_of_ne hiv]
    have hf'' : f'' i = held { s.workers i with queue_ := dst } pc := by
      simp only [f'', Function.update_self]
    have hmove : held { s.workers v with queue_ := src } (s.pc v) +
        held { s.workers i with queue_ := dst } pc = f v + f i := by
      have hsplit := congrArg (fun l : List τ => (l : Multiset τ))
        (List.take_append_drop cnt (s.workers v).queue_.list)
      simp only [← Multiset.coe_add] at hsplit
      have hold : (s.pc i).inExecution = 0 := by
        rw [hpc]
        rfl
      simp only [held, f, hsrc.list_eq kQueueSize_lt, hdst.list_eq kQueueSize_lt, hold, hnew,
        ← Multiset.coe_add]
      rw [← hsplit]
      ac_rfl
    rw [← h.tasks, State.tasks_eq, State.tasks_eq]
    rw [hf] at hsum
    rw [hf', hf''] at hsum'
    refine congrArg (fun m => (s.global_queue_ : Multiset τ) + m + s.executed) ?_
    refine add_right_cancel (b := f i + f v) ?_
    calc _ = ∑ j, f' j + held { s.workers i with queue_ := dst } pc + f v := by
          rw [← add_assoc]
          exact congrArg (· + f v) hsum'
      _ = ∑ j, f j + (held { s.workers v with queue_ := src } (s.pc v) +
            held { s.workers i with queue_ := dst } pc) := by
          rw [add_right_comm, hsum, add_assoc]
      _ = _ := by
          rw [hmove, add_comm (f v)]

/-- A worker with nothing in its ring goes looking for tasks. -/
theorem Fits.search {l : List τ} (hq : w.queue_.Holds []) (hb : w.buffer_.Holds l)
    (hdrained : pc ≠ .fillBuffer)
    (hpeek : ∀ k tail, pc = .peek k i tail → sub64 tail w.queue_.head = 0)
    (hvictim : ∀ k v, pc = .tryStealFrom k v → v ≠ i) : Fits i w pc where
  queue := ⟨[], hq⟩
  buffer := ⟨l, hb⟩
  drained he := absurd he hdrained
  searching _ := hq
  peek := hpeek
  victim := hvictim

/-- `RunComplex` at `GetNextTask`. -/
theorem Inv.next (h : Inv tasks s) (hold : (s.pc i).inExecution = 0) :
    Inv tasks (s.put i (getNextTask (s.workers i)).2 (.test (getNextTask (s.workers i)).1)) := by
  have hq := (h.fits i).inRing
  have hb := (h.fits i).inBuffer
  cases hlist : (s.workers i).buffer_.list with
  | nil =>
      rw [hlist] at hb
      rw [getNextTask_nil hb]
      have hfits : Fits i (s.workers i) .fillBuffer := .plain hq hb (fun _ => rfl) rfl
      refine h.put hfits rfl rfl ?_
      rw [held, held, hold]
      rfl
  | cons task rest =>
      rw [hlist] at hb
      obtain ⟨hget, hrest⟩ := getNextTask_cons hb
      rw [hget]
      have hfits : Fits i { s.workers i with buffer_ := (s.workers i).buffer_.shift }
        (.execute task) := .plain hq hrest nofun rfl
      refine h.put hfits rfl rfl ?_
      simp only [State.put, held, hold, hlist, hrest.list_eq kMaxBufferSize_lt,
        inExecution_execute, ← Multiset.cons_coe, ← Multiset.singleton_add]
      ac_rfl

/-- `RunComplex` at `FillBuffer`. -/
theorem Inv.fillBuffer (h : Inv tasks s) (hpc : s.pc i = .fillBuffer) :
    Inv tasks (s.put i (fillBuffer (s.workers i) 64).2
      (if (fillBuffer (s.workers i) 64).1 > 0 then .next else .tryFetchGlobal)) := by
  have hq := (h.fits i).inRing
  have hempty := (h.fits i).drained hpc
  obtain ⟨k, src, dst, hk, hfill, hsrc, hdst⟩ := fillBuffer_spec hq hempty
  rw [hfill]
  have hold : (s.pc i).inExecution = 0 := by
    rw [hpc]
    rfl
  have hsplit := congrArg (fun l : List τ => (l : Multiset τ))
    (List.take_append_drop k (s.workers i).queue_.list)
  simp only [← Multiset.coe_add] at hsplit
  have hheld : ∀ pc : Pc n τ, pc.inExecution = 0 →
      held { s.workers i with queue_ := src, buffer_ := dst } pc =
        held (s.workers i) (s.pc i) := by
    intro pc hnew
    simp only [held, hsrc.list_eq kQueueSize_lt, hdst.list_eq kMaxBufferSize_lt,
      hempty.list_eq kMaxBufferSize_lt, hold, hnew, ← hsplit, Multiset.coe_nil]
    ac_rfl
  by_cases hpos : k > 0
  · rw [if_pos hpos]
    have hfits : Fits i { s.workers i with queue_ := src, buffer_ := dst } .next :=
      .plain hsrc hdst nofun rfl
    refine h.put hfits rfl rfl ?_
    rw [hheld _ rfl]
    rfl
  · rw [if_neg hpos]
    have hnil : (s.workers i).queue_.list = [] := List.eq_nil_of_length_eq_zero (by omega)
    rw [hnil, List.drop_nil] at hsrc
    have hfits : Fits i { s.workers i with queue_ := src, buffer_ := dst } .tryFetchGlobal :=
      .search hsrc hdst nofun nofun nofun
    refine h.put hfits rfl rfl ?_
    rw [hheld _ rfl]
    rfl

/-- `RunComplex` at `TryFetchGlobal`. -/
theorem Inv.tryFetchGlobal (h : Inv tasks s) (hpc : s.pc i = .tryFetchGlobal)
    {owns localOwns : Bool} {cnt : Nat} {g : List τ}
    (hfetch : tryFetchGlobal owns localOwns n s.global_queue_ (s.workers i) 256 = .ok (cnt, g, w)) :
    Inv tasks ({ s with global_queue_ := g }.put i w
      (if cnt > 0 then .next else .tryStealAny 0)) := by
  have hq := (h.fits i).inRing
  have hb := (h.fits i).inBuffer
  have hempty := (h.fits i).searching (by rw [hpc]; rfl)
  obtain ⟨hcnt, rfl, hw, hq'⟩ := tryFetchGlobal_ok hq hfetch
  have hold : (s.pc i).inExecution = 0 := by
    rw [hpc]
    rfl
  have hb' : w.buffer_.Holds (s.workers i).buffer_.list := by
    rw [hw]
    exact hb
  have hsplit := congrArg (fun l : List τ => (l : Multiset τ))
    (List.take_append_drop cnt s.global_queue_)
  simp only [← Multiset.coe_add] at hsplit
  have hheld : ∀ pc : Pc n τ, pc.inExecution = 0 →
      (↑(s.global_queue_.drop cnt) + held w pc + ↑s.executed : Multiset τ) =
        ↑s.global_queue_ + held (s.workers i) (s.pc i) + ↑s.executed := by
    intro pc hnew
    simp only [held, hq'.list_eq kQueueSize_lt, hb'.list_eq kMaxBufferSize_lt, hold, hnew,
      ← Multiset.coe_add]
    rw [← hsplit]
    ac_rfl
  by_cases hpos : cnt > 0
  · rw [if_pos hpos]
    have hfits : Fits i w .next := .plain hq' hb' nofun rfl
    exact h.put hfits rfl rfl (hheld _ rfl)
  · rw [if_neg hpos]
    have hnil : cnt = 0 := by omega
    rw [hempty.list_eq kQueueSize_lt, hnil, List.take_zero, List.append_nil] at hq'
    have hfits : Fits i w (.tryStealAny 0) := .search hq' hb' nofun nofun nofun
    exact h.put hfits rfl rfl (hheld _ rfl)

/-- `RunComplex` at the critical section of `TryStealFrom`. -/
theorem Inv.tryStealFrom (h : Inv tasks s) {k : Nat} {v : Fin n} (hpc : s.pc i = .tryStealFrom k v)
    {owns localOwns : Bool} {cnt : Nat} {workers : Fin n → Worker τ}
    (hsteal : tryStealFrom owns localOwns s.workers i v 256 = .ok (cnt, workers)) :
    Inv tasks ({ s with workers }.goto i (if cnt > 0 then .next else .tryStealAny (k + 1))) := by
  have hf := h.fits i
  have hempty := hf.searching (by rw [hpc]; rfl)
  have hold : (s.pc i).inExecution = 0 := by
    rw [hpc]
    rfl
  have hagain : Fits i (s.workers i) (.tryStealAny (k + 1)) :=
    .search hempty hf.inBuffer nofun nofun nofun
  rcases tryStealFrom_ok hf.inRing (h.fits v).inRing hsteal with
    ⟨rfl, rfl⟩ | ⟨hiv, hne, src, dst, hsrc, hdst, rfl⟩
  · exact h.goto hagain rfl rfl rfl rfl hold rfl
  · by_cases hpos : cnt > 0
    · rw [if_pos hpos]
      have hfits : Fits i { s.workers i with queue_ := dst } .next :=
        .plain hdst hf.inBuffer nofun rfl
      exact h.steal hiv hpc hne hsrc hdst hfits rfl
    · rw [if_neg hpos]
      have hnil : cnt = 0 := by omega
      have hdst' := hdst
      rw [hempty.list_eq kQueueSize_lt, hnil, List.take_zero, List.append_nil] at hdst'
      have hfits : Fits i { s.workers i with queue_ := dst } (.tryStealAny (k + 1)) :=
        .search hdst' hf.inBuffer nofun nofun nofun
      exact h.steal hiv hpc hne hsrc hdst hfits rfl

/-- **Step lemma**: every statement of a worker keeps the invariant. -/
theorem Inv.worker (h : Inv tasks s) {ch : Choice n}
    (hstep : Worker.step use_complex i ch s = .ok (some s')) : Inv tasks s' := by
  have hf := h.fits i
  have hq := hf.inRing
  have hb := hf.inBuffer
  unfold Worker.step at hstep
  cases hpc : s.pc i with
  | take =>
      have hold : (s.pc i).inExecution = 0 := by
        rw [hpc]
        rfl
      simp only [hpc] at hstep
      split_ifs at hstep
      · cases hstep
      · cases hglobal : s.global_queue_ with
        | nil =>
            simp only [hglobal] at hstep
            cases hstep
            have hfits : Fits i (s.workers i) .stop := hf.elsewhere nofun rfl
            exact h.goto hfits rfl rfl rfl rfl hold rfl
        | cons task rest =>
            simp only [hglobal] at hstep
            cases hstep
            have hfits : Fits i (s.workers i) (.execute task) := hf.elsewhere nofun rfl
            refine h.put hfits (Function.update_eq_self _ _).symm rfl ?_
            simp only [State.goto, held, hold, hglobal, inExecution_execute, ← Multiset.cons_coe,
              ← Multiset.singleton_add]
            ac_rfl
  | next =>
      have hold : (s.pc i).inExecution = 0 := by
        rw [hpc]
        rfl
      have hnext := h.next hold
      simp only [hpc] at hstep
      cases hstep
      exact hnext
  | execute task =>
      simp only [hpc] at hstep
      cases hstep
      have hdone : ∀ pc' : Pc n τ, pc' ≠ .fillBuffer → pc'.searching = false →
          pc'.inExecution = 0 →
          Inv tasks ({ s with executed := s.executed ++ [task] }.goto i pc') := by
        intro pc' hdrained hsearching hnew
        refine h.put (hf.elsewhere hdrained hsearching) (Function.update_eq_self _ _).symm rfl ?_
        simp only [held, State.goto, hpc, hnew, inExecution_execute, ← Multiset.coe_add,
          Multiset.coe_singleton]
        ac_rfl
      cases use_complex with
      | false => exact hdone .report nofun rfl rfl
      | true => exact hdone .did nofun rfl rfl
  | did =>
      simp only [hpc] at hstep
      cases hstep
      have hfits : Fits i { s.workers i with task_did_ := add64 (s.workers i).task_did_ 1 } .next :=
        .plain hq hb nofun rfl
      refine h.put hfits rfl rfl ?_
      rw [held, held, hpc]
      rfl
  | fillBuffer =>
      have hfill := h.fillBuffer hpc
      simp only [hpc] at hstep
      cases hstep
      exact hfill
  | tryFetchGlobal =>
      simp only [hpc] at hstep
      cases hfetch : Scheduler.tryFetchGlobal (ch.owns && !s.main.holds) ch.localOwns n
          s.global_queue_ (s.workers i) 256 with
      | error e =>
          rw [hfetch] at hstep
          cases hstep
      | ok r =>
          rw [hfetch] at hstep
          cases hstep
          exact h.tryFetchGlobal hpc hfetch
  | tryStealAny k =>
      have hempty := hf.searching (by rw [hpc]; rfl)
      have hold : (s.pc i).inExecution = 0 := by
        rw [hpc]
        rfl
      simp only [hpc] at hstep
      split_ifs at hstep
      · cases hstep
        have hfits : Fits i (s.workers i)
            (.peek k ch.victim (s.workers ch.victim).queue_.tail) := by
          refine .search hempty hb nofun (fun k' tail he => ?_) nofun
          cases he
          exact hempty.count_eq kQueueSize_lt
        exact h.goto hfits rfl rfl rfl rfl hold rfl
      · cases hstep
        have hfits : Fits i (s.workers i) .stop := hf.elsewhere nofun rfl
        exact h.goto hfits rfl rfl rfl rfl hold rfl
  | peek k v tail =>
      have hempty := hf.searching (by rw [hpc]; rfl)
      have hold : (s.pc i).inExecution = 0 := by
        rw [hpc]
        rfl
      simp only [hpc] at hstep
      split_ifs at hstep with hzero
      · cases hstep
        have hfits : Fits i (s.workers i) (.tryStealAny (k + 1)) :=
          .search hempty hb nofun nofun nofun
        exact h.goto hfits rfl rfl rfl rfl hold rfl
      · cases hstep
        have hfits : Fits i (s.workers i) (.tryStealFrom k v) := by
          refine .search hempty hb nofun nofun fun k' v' he => ?_
          cases he
          rintro rfl
          exact hzero (hf.peek k tail hpc)
        exact h.goto hfits rfl rfl rfl rfl hold rfl
  | tryStealFrom k v =>
      simp only [hpc] at hstep
      cases hsteal : Scheduler.tryStealFrom ch.owns ch.localOwns s.workers i v 256 with
      | error e =>
          rw [hsteal] at hstep
          cases hstep
      | ok r =>
          rw [hsteal] at hstep
          cases hstep
          exact h.tryStealFrom hpc hsteal
  | stop =>
      have hold : (s.pc i).inExecution = 0 := by
        rw [hpc]
        rfl
      have hquiet : ∀ pc' : Pc n τ, pc' ≠ .fillBuffer → pc'.searching = false →
          pc'.inExecution = 0 → Inv tasks (s.goto i pc') := fun pc' hdrained hsearching hnew =>
        h.goto (hf.elsewhere hdrained hsearching) rfl rfl rfl rfl hold hnew
      simp only [hpc] at hstep
      split_ifs at hstep
      · cases hstep
        exact hquiet .left nofun rfl rfl
      · cases hstep
        exact hquiet .report nofun rfl rfl
      · cases hstep
        exact hquiet .next nofun rfl rfl
      · cases hstep
        exact hquiet .take nofun rfl rfl
  | report =>
      have hold : (s.pc i).inExecution = 0 := by
        rw [hpc]
        rfl
      have hquiet : ∀ (pc' : Pc n τ) (s'' : State n τ), s''.workers = s.workers →
          s''.pc = s.pc → s''.global_queue_ = s.global_queue_ → s''.executed = s.executed →
          pc' ≠ .fillBuffer → pc'.searching = false → pc'.inExecution = 0 →
          Inv tasks (s''.goto i pc') := by
        intro pc' s'' hw hp hg he hdrained hsearching hnew
        refine h.goto (hf.elsewhere hdrained hsearching) hw ?_ hg he hold hnew
        rw [← hp]
        rfl
      simp only [hpc] at hstep
      split_ifs at hstep
      · cases hstep
        exact hquiet .notify _ rfl rfl rfl rfl nofun rfl rfl
      · cases hstep
        exact hquiet .reset _ rfl rfl rfl rfl nofun rfl rfl
      · cases hstep
        exact hquiet .notify _ rfl rfl rfl rfl nofun rfl rfl
      · cases hstep
        exact hquiet .take _ rfl rfl rfl rfl nofun rfl rfl
  | notify =>
      have hold : (s.pc i).inExecution = 0 := by
        rw [hpc]
        rfl
      simp only [hpc] at hstep
      cases hstep
      cases use_complex with
      | false =>
          have hfits : Fits i (s.workers i) .take := hf.elsewhere nofun rfl
          exact h.goto hfits rfl rfl rfl rfl hold rfl
      | true =>
          have hfits : Fits i (s.workers i) .reset := hf.elsewhere nofun rfl
          exact h.goto hfits rfl rfl rfl rfl hold rfl
  | reset =>
      simp only [hpc] at hstep
      cases hstep
      have hfits : Fits i { s.workers i with task_did_ := 0 } .next := .plain hq hb nofun rfl
      refine h.put hfits rfl rfl ?_
      rw [held, held, hpc]
      rfl
  | left =>
      simp only [hpc] at hstep
      cases hstep

theorem Inv.main (h : Inv tasks s) (hstep : RunTasks.step s = some s') : Inv tasks s' := by
  obtain ⟨hworkers, hpc, hglobal, hexecuted, -, -⟩ := RunTasks.frame hstep
  refine ⟨fun i => ?_, ?_⟩
  · rw [hworkers, hpc]
    exact h.fits i
  · rw [← h.tasks, State.tasks, State.tasks, hworkers, hpc, hglobal, hexecuted]

theorem Inv.step (h : Inv tasks s) (hstep : Step use_complex s s') : Inv tasks s' := by
  cases hstep with
  | worker i ch hstep => exact h.worker hstep
  | main hstep => exact h.main hstep

theorem Started.inv (h : Started use_complex tasks s) : Inv tasks s := by
  have hqueue : ∀ i, (s.workers i).queue_.Holds [] := fun i =>
    Ring.holds_nil ((h.queue_ i).1.trans (h.queue_ i).2.symm) (by rw [(h.queue_ i).1]; decide)
  have hbuffer : ∀ i, (s.workers i).buffer_.Holds [] := fun i =>
    Ring.holds_nil ((h.buffer_ i).1.trans (h.buffer_ i).2.symm) (by rw [(h.buffer_ i).1]; decide)
  refine ⟨fun i => ?_, ?_⟩
  · rw [h.pc i]
    cases use_complex with
    | false => exact .plain (hqueue i) (hbuffer i) nofun rfl
    | true => exact .plain (hqueue i) (hbuffer i) nofun rfl
  · have hheld : ∀ i, held (s.workers i) (s.pc i) = 0 := by
      intro i
      rw [held, (hqueue i).list_eq kQueueSize_lt, (hbuffer i).list_eq kMaxBufferSize_lt, h.pc i]
      cases use_complex <;> rfl
    rw [State.tasks_eq, Finset.sum_eq_zero fun i _ => hheld i, h.global_queue_, h.executed,
      add_zero, Multiset.coe_nil, add_zero]

/-- **Run lemma**: every reachable state keeps it. -/
theorem Reachable.inv (h : Reachable use_complex tasks s) : Inv tasks s := by
  induction h with
  | start hs => exact hs.inv
  | step _ hstep ih => exact ih.step hstep

/-! ## every run -/

/-- The critical sections fault only as `TryFetchGlobal` does, or a steal from
oneself. -/
theorem Inv.ne_error (hn : 2 ≤ n) (h : Inv tasks s) (ch : Choice n) (e : Undefined) :
    Worker.step use_complex i ch s ≠ .error e := by
  have hf := h.fits i
  unfold Worker.step
  intro hstep
  cases hpc : s.pc i <;> simp only [hpc] at hstep
  case tryFetchGlobal =>
    cases hfetch : Scheduler.tryFetchGlobal (ch.owns && !s.main.holds) ch.localOwns n
        s.global_queue_ (s.workers i) 256 with
    | error e' => exact tryFetchGlobal_ne_error hn hf.inRing e' hfetch
    | ok r =>
        rw [hfetch] at hstep
        cases hstep
  case tryStealFrom k v =>
    cases hsteal : Scheduler.tryStealFrom ch.owns ch.localOwns s.workers i v 256 with
    | error e' => exact tryStealFrom_ne_error (hf.victim k v hpc).symm e' hsteal
    | ok r =>
        rw [hsteal] at hstep
        cases hstep
  case take =>
    split_ifs at hstep
    cases hglobal : s.global_queue_ <;> simp only [hglobal] at hstep <;> cases hstep
  all_goals
    try split_ifs at hstep
    all_goals cases hstep

/-- The tasks are those of the start, all queues are within their arrays, and no
statement leaves defined behaviour. -/
structure Conserved (use_complex : Bool) (tasks : List τ) (s : State n τ) : Prop where
  tasks : s.tasks = tasks
  queue_ : ∀ i, (s.workers i).queue_.count ≤ kQueueSize_
  buffer_ : ∀ i, (s.workers i).buffer_.count ≤ kMaxBufferSize_
  ne_error : ∀ i ch e, Worker.step use_complex i ch s ≠ .error e

/-- **No task is lost, duplicated or overwritten**, whatever two workers or more
do in whatever order. -/
theorem conserves (hn : 2 ≤ n) (tasks : List τ) (s : State n τ) (hs : Reachable true tasks s) :
    Conserved true tasks s := by
  have h := hs.inv
  refine ⟨h.tasks, fun i => ?_, fun i => ?_, fun i ch e => h.ne_error hn ch e⟩
  · have hq := (h.fits i).inRing
    rw [hq.count_eq kQueueSize_lt]
    exact hq.fits
  · have hb := (h.fits i).inBuffer
    rw [hb.count_eq kMaxBufferSize_lt]
    exact hb.fits

/-- Worker 0 fetches four of six tasks, and worker 1, for which `ctx.mtx_` is taken, steals two
of these; each executes the first it has. -/
theorem conserves_stolen : ∃ s : State 2 Nat,
    (s.global_queue_, (s.workers 0).task_did_, (s.workers 1).task_did_, s.executed) =
      ([5, 6], 1, 1, [1, 3]) ∧ Conserved true [1, 2, 3, 4, 5, 6] s := by
  have hplay : (play true anyStep (start true [1, 2, 3, 4, 5, 6] 0)
      (List.replicate 3 (some (0, ⟨true, true, 1⟩)) ++ List.replicate 3 (some (1, ⟨false, true, 0⟩)) ++
        List.replicate 8 (some (1, ⟨true, true, 0⟩)) ++
        List.replicate 5 (some (0, ⟨true, true, 1⟩)))).map (fun s : State 2 Nat =>
      (s.global_queue_, (s.workers 0).task_did_, (s.workers 1).task_did_, s.executed)) =
      some ([5, 6], 1, 1, [1, 3]) := by
    decide +kernel
  obtain ⟨s, hs, hfields⟩ := Option.map_eq_some_iff.mp hplay
  exact ⟨s, hfields, conserves le_rfl _ s
    (reachable_play (.start (started_start true [1, 2, 3, 4, 5, 6] 0)) hs)⟩

end Scheduler

end ServerStudy
