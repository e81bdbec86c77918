import ServerStudy.Scheduler.Conserve

/-!
# ServerStudy.Scheduler.Fetch

When `TryFetchGlobal` takes no more than the global queue holds.

The share of a worker is `size / num_threads_ + 1`: one worker alone asks for one
more than there is.

* `fetchCount_le_iff` — what the ring's room and the batch must make up for;
* `takes_iff` — with two workers or more it never asks for too many.
-/

namespace ServerStudy

namespace Scheduler

variable {n : Nat} {τ : Type} {g : List τ} {l : List τ} {w : Worker τ} {batch_size : Nat}
  {owns localOwns : Bool}

/-- What `TryFetchGlobal` may move: nothing without its locks or from an empty queue. -/
def fetchable (owns localOwns : Bool) (num_threads_ : Nat) (g : List τ) (w : Worker τ)
    (batch_size : Nat) : Nat :=
  if owns && localOwns && !g.isEmpty then fetchCount num_threads_ g w batch_size else 0

/-- `TryFetchGlobal` returns `cnt` and has moved the first `cnt` tasks, in order, to
the end of a ring that holds `l`; its loop asks an empty deque for nothing. -/
def Takes (owns localOwns : Bool) (num_threads_ : Nat) (g l : List τ) (w : Worker τ)
    (batch_size : Nat) : Prop :=
  let cnt := fetchable owns localOwns num_threads_ g w batch_size
  ∃ queue_, tryFetchGlobal owns localOwns num_threads_ g w batch_size =
      .ok (cnt, g.drop cnt, { w with queue_ := queue_ }) ∧
    cnt ≤ g.length ∧ l.length + cnt ≤ kQueueSize_ ∧ queue_.Holds (l ++ g.take cnt)

/-- In every reachable state the ring of every worker holds its tasks. -/
theorem Reachable.ring_holds {use_complex : Bool} {tasks : List τ} {s : State n τ}
    (h : Reachable use_complex tasks s) (i : Fin n) :
    (s.workers i).queue_.Holds (s.workers i).queue_.list :=
  (h.inv.fits i).inRing

/-- The three bounds, with the room in the ring by the number of its tasks. -/
theorem fetchCount_eq (hq : w.queue_.Holds l) : fetchCount n g w batch_size =
    min (min (g.length / n + 1) (kQueueSize_ - l.length)) batch_size := by
  rw [fetchCount, hq.count_eq kQueueSize_lt, sub64_of_le hq.fits kQueueSize_lt]

/-- Half of a queue and one more is at most the queue; all of it and one more is not. -/
theorem fetchCount_le_iff (hn : 1 ≤ n) (hg : g ≠ []) (hq : w.queue_.Holds l) :
    fetchCount n g w batch_size ≤ g.length ↔
      2 ≤ n ∨ min (kQueueSize_ - l.length) batch_size ≤ g.length := by
  have hpos : 0 < g.length := List.length_pos_of_ne_nil hg
  rw [fetchCount_eq hq]
  by_cases h2 : 2 ≤ n
  · have hhalf : g.length / n ≤ g.length / 2 := Nat.div_le_div_left h2 (by decide)
    constructor
    · intro _
      exact .inl h2
    · intro _
      omega
  · obtain rfl : n = 1 := by omega
    rw [Nat.div_one]
    omega

/-- Without a lock, or from an empty queue, nothing moves. -/
theorem takes_of_idle (hq : w.queue_.Holds l)
    (h : (owns && localOwns && !g.isEmpty) = false) :
    Takes owns localOwns n g l w batch_size := by
  have hcnt : fetchable owns localOwns n g w batch_size = 0 := if_neg (by rw [h]; decide)
  have hrun : tryFetchGlobal owns localOwns n g w batch_size = .ok (0, g, w) := by
    unfold tryFetchGlobal
    cases owns <;> cases localOwns <;> grind
  unfold Takes
  rw [hcnt]
  refine ⟨w.queue_, hrun, Nat.zero_le _, hq.fits, ?_⟩
  rw [List.take_zero, List.append_nil]
  exact hq

/-- With both locks it comes down to the count. -/
theorem takes_iff_of_busy (hg : g ≠ []) (hq : w.queue_.Holds l) :
    Takes true true n g l w batch_size ↔ fetchCount n g w batch_size ≤ g.length := by
  have hempty : g.isEmpty = false := by
    cases g with
    | nil => exact absurd rfl hg
    | cons task g => rfl
  have hcnt : fetchable true true n g w batch_size = fetchCount n g w batch_size :=
    if_pos (by rw [hempty]; decide)
  have hrun : tryFetchGlobal true true n g w batch_size =
      (fetch (fetchCount n g w batch_size) g w.queue_).map fun r =>
        (fetchCount n g w batch_size, r.1, { w with queue_ := r.2 }) := by
    unfold tryFetchGlobal
    rw [if_neg (by rw [hempty]; decide), if_neg (by decide)]
  have hroom : l.length + fetchCount n g w batch_size ≤ kQueueSize_ := fetchCount_le hq
  unfold Takes
  rw [hcnt]
  constructor
  · intro ⟨_, _, hle, _⟩
    exact hle
  · intro hle
    obtain ⟨q', hfetch, hq'⟩ := fetch_eq hq hle hroom
    rw [hrun, hfetch]
    exact ⟨q', rfl, hle, hroom, hq'⟩

/-- **When `TryFetchGlobal` is sound.**  With one worker, only the room in the ring
or the batch keeps its loop from the end of the queue. -/
theorem takes_iff (n : Nat) (hn : 1 ≤ n) (g l : List τ) (w : Worker τ) (hq : w.queue_.Holds l)
    (batch_size : Nat) (owns localOwns : Bool) :
    Takes owns localOwns n g l w batch_size ↔
      owns = false ∨ localOwns = false ∨ g = [] ∨ 2 ≤ n ∨
        min (kQueueSize_ - l.length) batch_size ≤ g.length := by
  by_cases hbusy : (owns && localOwns && !g.isEmpty) = true
  · simp only [Bool.and_eq_true, Bool.not_eq_true', List.isEmpty_eq_false_iff] at hbusy
    obtain ⟨⟨rfl, rfl⟩, hg⟩ := hbusy
    rw [takes_iff_of_busy hg hq, fetchCount_le_iff hn hg hq]
    simp [hg]
  · have hidle : (owns && localOwns && !g.isEmpty) = false := by simpa using hbusy
    have htakes : Takes owns localOwns n g l w batch_size := takes_of_idle hq hidle
    simp only [htakes, true_iff]
    cases owns <;> cases localOwns <;> grind

/-- A worker that has done nothing yet. -/
def newWorker : Worker Nat := ⟨⟨fun _ => 0, 0, 0⟩, ⟨fun _ => 0, 0, 0⟩, 0⟩

theorem newWorker_holds : newWorker.queue_.Holds [] := Ring.holds_nil rfl (by decide)

theorem takes_iff_two : Takes true true 2 [7] [] newWorker 256 :=
  (takes_iff 2 (by decide) [7] [] newWorker newWorker_holds 256 true true).mpr (by decide)

/-- A worker alone, with one task left in the global queue, asks for two. -/
theorem fetches_too_many : ¬ Takes true true 1 [7] [] newWorker 256 := by
  rw [takes_iff_of_busy (by decide) newWorker_holds]
  decide

end Scheduler

end ServerStudy
