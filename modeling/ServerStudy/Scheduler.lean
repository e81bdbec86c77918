import ServerStudy.Ring

/-!
# ServerStudy.Scheduler

The work-stealing benchmark (`Scheduler/Worker.hpp`, `Worker.cpp`, `Main.cpp`):
workers that take tasks from a global queue, from their own ring and from each
other's, and the main thread that waits for the last of them.

`tryFetchGlobal`, `tryStealFrom`, `fillBuffer` and `getNextTask` are functions
on the queues they touch, each a critical section.  `Worker.step` and
`RunTasks.step` are the threads, statement by statement, with a program counter;
a `Choice` is what a thread cannot know: which `try_lock`s succeed and whom a
draw picks.

A task is a `Task*` other than `nullptr`.  `DummyTask` and `sum_` are left out:
executing a task is to log it.
-/

namespace ServerStudy

namespace Scheduler

variable {n : Nat} {τ : Type}

/-! ## data -/

/-- `Worker::kQueueSize_`. -/
def kQueueSize_ : Nat := 512

/-- `Worker::kMaxBufferSize_`. -/
def kMaxBufferSize_ : Nat := 64

instance : NeZero kQueueSize_ := ⟨by decide⟩

instance : NeZero kMaxBufferSize_ := ⟨by decide⟩

/-- The fields of `Worker`; each ring is an array with its head and tail. -/
structure Worker (τ : Type) where
  queue_ : Ring kQueueSize_ τ
  buffer_ : Ring kMaxBufferSize_ τ
  task_did_ : Nat

/-- Undefined behaviour: `front()` of an empty deque, or `try_lock` of a mutex
by the thread that owns it. -/
inductive Undefined where
  | emptyDeque
  | relock
  deriving DecidableEq

/-! ## moving tasks -/

/-- The loop of `TryFetchGlobal`. -/
def fetch : Nat → List τ → Ring kQueueSize_ τ → Except Undefined (List τ × Ring kQueueSize_ τ)
  | 0, global_queue_, queue_ => .ok (global_queue_, queue_)
  | _ + 1, [], _ => .error .emptyDeque
  | cnt + 1, task :: global_queue_, queue_ => fetch cnt global_queue_ (queue_.push task)

/-- `cnt` of `TryFetchGlobal`. -/
def fetchCount (num_threads_ : Nat) (global_queue_ : List τ) (self : Worker τ) (batch_size : Nat) :
    Nat :=
  min (min (global_queue_.length / num_threads_ + 1) (sub64 kQueueSize_ self.queue_.count))
    batch_size

/-- `Worker::TryFetchGlobal`; `owns` and `localOwns` are the two `owns_lock()`. -/
def tryFetchGlobal (owns localOwns : Bool) (num_threads_ : Nat) (global_queue_ : List τ)
    (self : Worker τ) (batch_size : Nat) : Except Undefined (Nat × List τ × Worker τ) :=
  if !owns || global_queue_.isEmpty then .ok (0, global_queue_, self)
  else if !localOwns then .ok (0, global_queue_, self)
  else
    let cnt := fetchCount num_threads_ global_queue_ self batch_size
    (fetch cnt global_queue_ self.queue_).map fun r => (cnt, r.1, { self with queue_ := r.2 })

/-- `cnt` of `TryStealFrom`. -/
def stealCount (victim self : Worker τ) (batch_size : Nat) : Nat :=
  min (min (add64 victim.queue_.count 1 / 2) (sub64 kQueueSize_ self.queue_.count)) batch_size

/-- `Worker::TryStealFrom` from its first `try_lock` on. -/
def tryStealFrom (owns localOwns : Bool) (workers : Fin n → Worker τ) (self victim : Fin n)
    (batch_size : Nat) : Except Undefined (Nat × (Fin n → Worker τ)) :=
  if !owns || (workers victim).queue_.count = 0 then .ok (0, workers)
  -- the second `try_lock` is on a mutex the thread owns
  else if self = victim then .error .relock
  else if !localOwns then .ok (0, workers)
  else
    let cnt := stealCount (workers victim) (workers self) batch_size
    let moved := Ring.transfer cnt (workers victim).queue_ (workers self).queue_
    .ok (cnt, Function.update
      (Function.update workers victim { workers victim with queue_ := moved.1 })
      self { workers self with queue_ := moved.2 })

/-- `Worker::FillBuffer`. -/
def fillBuffer (self : Worker τ) (batch_size : Nat) : Nat × Worker τ :=
  let cnt := min self.queue_.count batch_size
  let moved := Ring.transfer cnt self.queue_ self.buffer_
  (cnt, { self with queue_ := moved.1, buffer_ := moved.2 })

/-- `Worker::GetNextTask`, `none` for `nullptr`. -/
def getNextTask (self : Worker τ) : Option τ × Worker τ :=
  if self.buffer_.count > 0 then
    (some self.buffer_.front, { self with buffer_ := self.buffer_.shift })
  else (none, self)

/-! ## threads -/

/-- Where a worker is: what it does next. -/
inductive Pc (n : Nat) (τ : Type) where
  /-- `RunSimple`: take a task off the global queue -/
  | take
  /-- `RunComplex`: `GetNextTask` -/
  | next
  | execute (task : τ)
  /-- `task_did_++` -/
  | did
  | fillBuffer
  | tryFetchGlobal
  /-- turn `i` of `TryStealAny`: draw a victim and read its `queue_tail_` -/
  | tryStealAny (i : Nat)
  /-- `TryStealFrom`: read the victim's `queue_head_` -/
  | peek (i : Nat) (victim : Fin n) (queue_tail_ : Nat)
  | tryStealFrom (i : Nat) (victim : Fin n)
  /-- `if (ctx.stop_) break` -/
  | stop
  /-- `pending_tasks_.fetch_sub` -/
  | report
  /-- `task_done_.notify_one` -/
  | notify
  /-- `task_did_ = 0` -/
  | reset
  /-- out of the loop -/
  | left

/-- Whether a worker is out of its loop. -/
def Pc.isLeft : Pc n τ → Bool
  | .left => true
  | _ => false

/-- Where the main thread is, in `RunTasks` after it started the workers. -/
inductive MainPc where
  /-- acquire `ctx.mtx_` -/
  | lock
  /-- evaluate the predicate -/
  | check
  /-- release the mutex and go to sleep -/
  | sleep
  | asleep
  /-- leave the scope of the lock -/
  | unlock
  /-- `ctx.stop_ = true` -/
  | stop
  | join
  | done
  deriving DecidableEq

/-- Whether the main thread owns `ctx.mtx_`. -/
def MainPc.holds : MainPc → Bool
  | .check | .sleep | .unlock => true
  | _ => false

/-- The context, the workers and all threads.  `executed` logs the tasks
executed, and `zeroed` the workers whose `fetch_sub` found what it took off. -/
structure State (n : Nat) (τ : Type) where
  global_queue_ : List τ
  pending_tasks_ : Int
  stop_ : Bool
  workers : Fin n → Worker τ
  pc : Fin n → Pc n τ
  main : MainPc
  executed : List τ
  zeroed : List (Fin n)

/-- What a worker cannot know. -/
structure Choice (n : Nat) where
  /-- `owns_lock()` of the first `try_lock` -/
  owns : Bool
  /-- `owns_lock()` of the second `try_lock` -/
  localOwns : Bool
  /-- `dist(rng)` -/
  victim : Fin n

/-- `pending_tasks_.fetch_sub(did)`, in an `int`. -/
def fetchSub (pending_tasks_ : Int) (did : Nat) : Int :=
  (pending_tasks_ - (did : Int).bmod (2 ^ 32)).bmod (2 ^ 32)

/-- Conversion of an `int` to `size_t`. -/
def toSizeT (i : Int) : Nat := (i % 2 ^ 64).toNat

namespace State

/-- Worker `i` goes on to `pc`. -/
def goto (s : State n τ) (i : Fin n) (pc : Pc n τ) : State n τ :=
  { s with pc := Function.update s.pc i pc }

/-- Worker `i` has new fields and goes on to `pc`. -/
def put (s : State n τ) (i : Fin n) (w : Worker τ) (pc : Pc n τ) : State n τ :=
  { s with workers := Function.update s.workers i w, pc := Function.update s.pc i pc }

end State

/-- Where a worker begins each turn of its loop. -/
def Pc.top (use_complex : Bool) : Pc n τ := if use_complex then .next else .take

/-- `if (task)` of `RunComplex`. -/
def Pc.test : Option τ → Pc n τ
  | some task => .execute task
  | none => .fillBuffer

/-- The next statement of worker `i` in `Run(use_complex)`, unless it has to
wait or is out of the loop. -/
def Worker.step (use_complex : Bool) (i : Fin n) (ch : Choice n) (s : State n τ) :
    Except Undefined (Option (State n τ)) :=
  let w := s.workers i
  match s.pc i with
  | .take =>
    if s.main.holds then .ok none
    else match s.global_queue_ with
      | [] => .ok (some (s.goto i .stop))
      | task :: rest => .ok (some ({ s with global_queue_ := rest }.goto i (.execute task)))
  | .next =>
    let r := getNextTask w
    .ok (some (s.put i r.2 (.test r.1)))
  | .execute task =>
    .ok (some ({ s with executed := s.executed ++ [task] }.goto i
      (if use_complex then .did else .report)))
  | .did => .ok (some (s.put i { w with task_did_ := add64 w.task_did_ 1 } .next))
  | .fillBuffer =>
    let r := fillBuffer w 64
    .ok (some (s.put i r.2 (if r.1 > 0 then .next else .tryFetchGlobal)))
  | .tryFetchGlobal =>
    (tryFetchGlobal (ch.owns && !s.main.holds) ch.localOwns n s.global_queue_ w 256).map fun r =>
      some ({ s with global_queue_ := r.2.1 }.put i r.2.2
        (if r.1 > 0 then .next else .tryStealAny 0))
  | .tryStealAny k =>
    if k < n then
      .ok (some (s.goto i (.peek k ch.victim (s.workers ch.victim).queue_.tail)))
    else .ok (some (s.goto i .stop))
  | .peek k victim queue_tail_ =>
    if sub64 queue_tail_ (s.workers victim).queue_.head = 0 then
      .ok (some (s.goto i (.tryStealAny (k + 1))))
    else .ok (some (s.goto i (.tryStealFrom k victim)))
  | .tryStealFrom k victim =>
    (tryStealFrom ch.owns ch.localOwns s.workers i victim 256).map fun r =>
      some ({ s with workers := r.2 }.goto i (if r.1 > 0 then .next else .tryStealAny (k + 1)))
  | .stop =>
    if s.stop_ then .ok (some (s.goto i .left))
    else if use_complex then .ok (some (s.goto i (if w.task_did_ > 0 then .report else .next)))
    else .ok (some (s.goto i .take))
  | .report =>
    let did := if use_complex then w.task_did_ else 1
    let s' := { s with pending_tasks_ := fetchSub s.pending_tasks_ did }
    if toSizeT s.pending_tasks_ = did then
      .ok (some ({ s' with zeroed := s.zeroed ++ [i] }.goto i .notify))
    else .ok (some (s'.goto i (if use_complex then .reset else .take)))
  | .notify =>
    let main := if s.main = .asleep then .lock else s.main
    .ok (some ({ s with main }.goto i (if use_complex then .reset else .take)))
  | .reset => .ok (some (s.put i { w with task_did_ := 0 } .next))
  | .left => .ok none

/-- The next statement of the main thread in `RunTasks`, unless it has to wait;
a sleeping thread may wake up by itself. -/
def RunTasks.step (s : State n τ) : Option (State n τ) :=
  match s.main with
  | .lock => some { s with main := .check }
  | .check => some { s with main := if s.pending_tasks_ = 0 then .unlock else .sleep }
  | .sleep => some { s with main := .asleep }
  | .asleep => some { s with main := .lock }
  | .unlock => some { s with main := .stop }
  | .stop => some { s with stop_ := true, main := .join }
  | .join => if ∀ i, (s.pc i).isLeft = true then some { s with main := .done } else none
  | .done => none

/-! ## runs -/

/-- A step of any thread. -/
inductive Step (use_complex : Bool) (s s' : State n τ) : Prop where
  | worker (i : Fin n) (ch : Choice n) : Worker.step use_complex i ch s = .ok (some s') →
      Step use_complex s s'
  | main : RunTasks.step s = some s' → Step use_complex s s'

/-- As `RunTasks` starts the workers: the tasks in the global queue, and nothing
anywhere else. -/
structure Started (use_complex : Bool) (tasks : List τ) (s : State n τ) : Prop where
  global_queue_ : s.global_queue_ = tasks
  pending_tasks_ : s.pending_tasks_ = (tasks.length : Int).bmod (2 ^ 32)
  stop_ : s.stop_ = false
  queue_ : ∀ i, (s.workers i).queue_.head = 0 ∧ (s.workers i).queue_.tail = 0
  buffer_ : ∀ i, (s.workers i).buffer_.head = 0 ∧ (s.workers i).buffer_.tail = 0
  task_did_ : ∀ i, (s.workers i).task_did_ = 0
  pc : ∀ i, s.pc i = .top use_complex
  main : s.main = .lock
  executed : s.executed = []
  zeroed : s.zeroed = []

/-- Such a state; what is in the arrays does not matter. -/
def start (use_complex : Bool) (tasks : List τ) (uninitialised : τ) : State n τ where
  global_queue_ := tasks
  pending_tasks_ := (tasks.length : Int).bmod (2 ^ 32)
  stop_ := false
  workers _ := ⟨⟨fun _ => uninitialised, 0, 0⟩, ⟨fun _ => uninitialised, 0, 0⟩, 0⟩
  pc _ := .top use_complex
  main := .lock
  executed := []
  zeroed := []

theorem started_start (use_complex : Bool) (tasks : List τ) (uninitialised : τ) :
    Started use_complex tasks (start use_complex tasks uninitialised : State n τ) := by
  refine ⟨rfl, ?_, rfl, fun _ => ⟨rfl, rfl⟩, fun _ => ⟨rfl, rfl⟩, fun _ => rfl, fun _ => rfl, rfl,
    rfl, rfl⟩
  rw [start]

/-- Reached from such a state by steps of any threads, in any order. -/
inductive Reachable (use_complex : Bool) (tasks : List τ) : State n τ → Prop where
  | start {s : State n τ} : Started use_complex tasks s → Reachable use_complex tasks s
  | step {s s' : State n τ} : Reachable use_complex tasks s → Step use_complex s s' →
      Reachable use_complex tasks s'

/-- Statements of a worker, or of the main thread, one after the other, each one a step with
`ok`. -/
def play (use_complex : Bool) (ok : State n τ → State n τ → Prop) [DecidableRel ok] :
    State n τ → List (Option (Fin n × Choice n)) → Option (State n τ)
  | s, [] => some s
  | s, none :: rest =>
      (RunTasks.step s).bind fun s' => if ok s s' then play use_complex ok s' rest else none
  | s, some (i, ch) :: rest =>
      match Worker.step use_complex i ch s with
      | .ok (some s') => if ok s s' then play use_complex ok s' rest else none
      | _ => none

/-- What such steps preserve holds where they lead to. -/
theorem play_induction {use_complex : Bool} {ok : State n τ → State n τ → Prop} [DecidableRel ok]
    {R : State n τ → Prop} (hR : ∀ s s', R s → Step use_complex s s' → ok s s' → R s')
    {moves : List (Option (Fin n × Choice n))} {s s' : State n τ} (hs : R s)
    (h : play use_complex ok s moves = some s') : R s' := by
  induction moves generalizing s with
  | nil =>
      cases h
      exact hs
  | cons move rest ih =>
      cases move with
      | none =>
          obtain ⟨s₁, hstep, h⟩ := Option.bind_eq_some_iff.mp h
          split_ifs at h with hok
          exact ih (hR s s₁ hs (.main hstep) hok) h
      | some move =>
          obtain ⟨i, ch⟩ := move
          simp only [play] at h
          cases hstep : Worker.step use_complex i ch s with
          | error e =>
              rw [hstep] at h
              cases h
          | ok next =>
              rw [hstep] at h
              cases next with
              | none => cases h
              | some s₁ =>
                  simp only at h
                  split_ifs at h with hok
                  exact ih (hR s s₁ hs (.worker i ch hstep) hok) h

/-- Any step. -/
def anyStep (_ _ : State n τ) : Prop := True

instance : DecidableRel (anyStep : State n τ → State n τ → Prop) := fun _ _ => isTrue trivial

theorem reachable_play {use_complex : Bool} {tasks : List τ} {s s' : State n τ}
    {moves : List (Option (Fin n × Choice n))} (hs : Reachable use_complex tasks s)
    (h : play use_complex anyStep s moves = some s') : Reachable use_complex tasks s' :=
  play_induction (fun _ _ hr hstep _ => hr.step hstep) hs h

/-- The main thread touches nothing of the workers'. -/
theorem RunTasks.frame {s s' : State n τ} (h : RunTasks.step s = some s') :
    s'.workers = s.workers ∧ s'.pc = s.pc ∧ s'.global_queue_ = s.global_queue_ ∧
      s'.executed = s.executed ∧ s'.pending_tasks_ = s.pending_tasks_ ∧ s'.zeroed = s.zeroed := by
  unfold RunTasks.step at h
  cases hmain : s.main <;> simp only [hmain] at h
  case join =>
    split_ifs at h
    cases h
    exact ⟨rfl, rfl, rfl, rfl, rfl, rfl⟩
  all_goals
    cases h
    try exact ⟨rfl, rfl, rfl, rfl, rfl, rfl⟩

end Scheduler

end ServerStudy
