import Mathlib.Algebra.Order.BigOperators.Group.Finset
import ServerStudy.Protocol
import ServerStudy.Session

/-!
# ServerStudy.Listener

How `Listener` (`Network/Server/Listener.cpp`) counts its accepts:
`PostAccept` and `DecrementPendingAccepts`, statement by statement, on any
number of threads.

The calls a thread is in form a stack, since the pool's post-release function
calls `PostAccept` from wherever a last pointer is dropped, `PostAccept`
included.  What the sessions are doing is left free: any thread may be called
back at any time, and `CreateSession` may or may not find a session.

* `Reachable.inv` — `pendingAccepts_` counts the accepts there are, and those
  whose `AcceptEx` failed;
* `accounted` — so the count is right as long as none fails;
* `failed_accept_counts` — one that does is counted for ever, because
  `RegisterAccept` compares a `BOOL` with `SOCKET_ERROR`.
-/

namespace ServerStudy

/-! ## data -/

/-- What `AcceptEx` or `DisconnectEx` does: its `BOOL`, and `WSAGetLastError()`
after a `FALSE`. -/
structure BoolResult where
  result : Bool
  errorCode : Nat
  deriving DecidableEq

/-- The `BOOL`, an `int`. -/
def BoolResult.toBOOL (r : BoolResult) : Int := if r.result then 1 else 0

/-- No `BOOL` is `SOCKET_ERROR`. -/
theorem BoolResult.toBOOL_ne (r : BoolResult) : r.toBOOL ≠ SOCKET_ERROR := by
  unfold BoolResult.toBOOL SOCKET_ERROR
  split_ifs
  · decide
  · decide

/-- An operation is outstanding: the call succeeded, or is pending. -/
def BoolResult.posted (r : BoolResult) : Bool := r.result || r.errorCode = WSA_IO_PENDING

namespace Listener

/-- What `RegisterAccept` returns after `AcceptEx`. -/
def registerAccept (r : BoolResult) : Bool :=
  if r.toBOOL = SOCKET_ERROR then decide (r.errorCode = WSA_IO_PENDING) else true

/-- Where a call of `PostAccept` or `DecrementPendingAccepts` is: what it does
next. -/
inductive Pc where
  /-- `DecrementPendingAccepts`: `pendingAccepts_--` -/
  | decrement
  /-- `PostAccept`: load `pendingAccepts_` and compare it with `kAcceptCount` -/
  | load
  | compareExchange (current : Nat)
  | createSession
  /-- `pendingAccepts_--`, without a session -/
  | noSession
  | registerAccept
  /-- `pendingAccepts_--`, after `RegisterAccept` returned false -/
  | notRegistered
  | disconnect
  | setListener
  deriving DecidableEq

/-- The counter, the accepts the kernel has (completed and not dequeued ones
included), and the calls each thread is in, innermost first.  `refused` counts
the `AcceptEx` that posted nothing. -/
structure State (ι : Type) where
  pendingAccepts_ : Nat
  outstanding : Nat
  calls : ι → List Pc
  refused : Nat

/-- What happens next. -/
inductive Event (ι : Type) where
  /-- `PostAccept` is called: at start-up, or by the pool -/
  | call (t : ι)
  /-- a worker dequeues a completed accept and calls `DecrementPendingAccepts` -/
  | complete (t : ι)
  /-- the next statement of the innermost call; `created` is whether
  `CreateSession` finds a session -/
  | run (t : ι) (created : Bool) (acceptEx : BoolResult)

variable {ι : Type} [DecidableEq ι]

/-- Replace the calls of a thread. -/
def State.put (s : State ι) (t : ι) (calls : List Pc) : State ι :=
  { s with calls := Function.update s.calls t calls }

/-- The next statement of the innermost call of a thread. -/
def run (t : ι) (created : Bool) (acceptEx : BoolResult) (s : State ι) : Option (State ι) :=
  match s.calls t with
  | [] => none
  | pc :: outer => some <|
    match pc with
    | .decrement =>
      { s with pendingAccepts_ := sub64 s.pendingAccepts_ 1 }.put t (.load :: outer)
    | .load =>
      if s.pendingAccepts_ ≥ kAcceptCount then s.put t outer
      else s.put t (.compareExchange s.pendingAccepts_ :: outer)
    | .compareExchange current =>
      if s.pendingAccepts_ = current then
        { s with pendingAccepts_ := add64 current 1 }.put t (.createSession :: outer)
      else s.put t (.load :: outer)
    | .createSession => s.put t ((if created then .registerAccept else .noSession) :: outer)
    | .noSession => { s with pendingAccepts_ := sub64 s.pendingAccepts_ 1 }.put t outer
    | .registerAccept =>
      { s with
        outstanding := if acceptEx.posted then s.outstanding + 1 else s.outstanding
        refused := if acceptEx.posted then s.refused else s.refused + 1 }.put t
        ((if registerAccept acceptEx then .setListener else .notRegistered) :: outer)
    | .notRegistered =>
      { s with pendingAccepts_ := sub64 s.pendingAccepts_ 1 }.put t (.disconnect :: outer)
    | .disconnect => s.put t outer
    | .setListener => s.put t (.load :: outer)

/-- An event, if it can happen. -/
def step (s : State ι) : Event ι → Option (State ι)
  | .call t => some (s.put t (.load :: s.calls t))
  | .complete t =>
    if s.outstanding = 0 then none
    else some ({ s with outstanding := s.outstanding - 1 }.put t (.decrement :: s.calls t))
  | .run t created acceptEx => run t created acceptEx s

/-- A new listener. -/
def start (ι : Type) : State ι := ⟨0, 0, fun _ => [], 0⟩

/-- Reached from a new listener by events with `ok`. -/
inductive Reachable (ok : Event ι → Prop) : State ι → Prop where
  | start : Reachable ok (start ι)
  | step {s s' : State ι} {e : Event ι} : Reachable ok s → ok e → step s e = some s' →
      Reachable ok s'

/-- `AcceptEx` posts an operation. -/
def Event.Posts : Event ι → Prop
  | .run _ _ acceptEx => acceptEx.posted = true
  | _ => True

/-! ## what is counted -/

/-- A completed accept is not yet decremented. -/
def Pc.completed : Pc → Bool
  | .decrement => true
  | _ => false

/-- A turn of `PostAccept` is between its compare-exchange and its `AcceptEx` or
its own decrement. -/
def Pc.posting : Pc → Bool
  | .createSession | .noSession | .registerAccept | .notRegistered => true
  | _ => false

/-- The next statement is `pendingAccepts_--`. -/
def Pc.decrements : Pc → Bool
  | .decrement | .noSession | .notRegistered => true
  | _ => false

variable [Fintype ι]

/-- How many calls are somewhere. -/
def State.count (s : State ι) (at_ : Pc → Bool) : Nat := ∑ t, (s.calls t).countP at_

/-- The count is right. -/
structure Accounted (s : State ι) : Prop where
  le : s.pendingAccepts_ ≤ kAcceptCount
  /-- no `pendingAccepts_--` takes it below 0 -/
  pos : ∀ t, ∀ pc ∈ s.calls t, pc.decrements = true → 0 < s.pendingAccepts_
  exact : s.pendingAccepts_ = s.outstanding + s.count Pc.completed + s.count Pc.posting

/-- What holds of any state reached. -/
structure Inv (s : State ι) : Prop where
  le : s.pendingAccepts_ ≤ kAcceptCount
  /-- a compare-exchange never goes over the limit -/
  current : ∀ t current, .compareExchange current ∈ s.calls t → current < kAcceptCount
  exact : s.pendingAccepts_ =
    s.outstanding + s.count Pc.completed + s.count Pc.posting + s.refused

/-- What some calls of one thread count for. -/
def charge (calls : List Pc) : Nat := calls.countP Pc.completed + calls.countP Pc.posting

/-! ## one event -/

/-- So its error path is never taken. -/
theorem registerAccept_eq (r : BoolResult) : registerAccept r = true := if_neg r.toBOOL_ne

/-- A thread goes from some calls to others. -/
theorem count_put (s : State ι) (t : ι) (calls : List Pc) (at_ : Pc → Bool) :
    (s.put t calls).count at_ + (s.calls t).countP at_ = s.count at_ + calls.countP at_ := by
  unfold State.count State.put
  rw [← Finset.add_sum_erase _ _ (Finset.mem_univ t),
    ← Finset.add_sum_erase _ (fun t => (s.calls t).countP at_) (Finset.mem_univ t)]
  have hrest : ∀ u ∈ Finset.univ.erase t,
      (Function.update s.calls t calls u).countP at_ = (s.calls u).countP at_ := fun u hu => by
    rw [Function.update_of_ne (Finset.ne_of_mem_erase hu)]
  rw [Finset.sum_congr rfl hrest]
  simp only [Function.update_self]
  omega

omit [DecidableEq ι] in
/-- A call that is somewhere is counted there. -/
theorem count_pos {s : State ι} {t : ι} {pc : Pc} (hmem : pc ∈ s.calls t) {at_ : Pc → Bool}
    (hpc : at_ pc = true) : 0 < s.count at_ :=
  Nat.lt_of_lt_of_le (List.countP_pos_iff.mpr ⟨pc, hmem, hpc⟩)
    (Finset.single_le_sum (f := fun t => (s.calls t).countP at_) (fun _ _ => Nat.zero_le _)
      (Finset.mem_univ t))

namespace Inv

variable {s s' : State ι} {t : ι}

omit [DecidableEq ι] in
/-- A statement that decrements follows one that is counted. -/
theorem pos_of_decrements (h : Inv s) {pc : Pc} (hmem : pc ∈ s.calls t)
    (hpc : pc.decrements = true) : 0 < s.pendingAccepts_ := by
  have hexact := h.exact
  have hcounted : pc.completed = true ∨ pc.posting = true := by
    cases pc <;> simp [Pc.decrements, Pc.completed, Pc.posting] at hpc ⊢
  have hsum : 0 < s.count Pc.completed + s.count Pc.posting := by
    rcases hcounted with hc | hp
    · exact Nat.add_pos_left (count_pos hmem hc) _
    · exact Nat.add_pos_right _ (count_pos hmem hp)
  omega

/-- A thread replaces its innermost calls, and the numbers change by what these
count for. -/
theorem replace (h : Inv s) (old new : List Pc) {outer : List Pc} (ht : s.calls t = old ++ outer)
    {pendingAccepts_ outstanding refused : Nat} (hle : pendingAccepts_ ≤ kAcceptCount)
    (hcurrent : ∀ current, .compareExchange current ∈ new → current < kAcceptCount)
    (hexact : pendingAccepts_ + charge old + s.outstanding + s.refused =
      s.pendingAccepts_ + charge new + outstanding + refused) :
    Inv (State.put ⟨pendingAccepts_, outstanding, s.calls, refused⟩ t (new ++ outer)) := by
  have hcompleted := count_put s t (new ++ outer) Pc.completed
  have hposting := count_put s t (new ++ outer) Pc.posting
  have hold := h.exact
  rw [ht, List.countP_append, List.countP_append] at hcompleted hposting
  refine ⟨hle, fun u current hmem => ?_, ?_⟩
  · by_cases hu : u = t
    · subst hu
      simp only [State.put, Function.update_self] at hmem
      rcases List.mem_append.mp hmem with hnew | houter
      · exact hcurrent current hnew
      · exact h.current u current (ht ▸ List.mem_append_right old houter)
    · simp only [State.put, Function.update_of_ne hu] at hmem
      exact h.current u current hmem
  · simp only [State.put, State.count, charge] at hcompleted hposting hold hexact ⊢
    omega

omit [DecidableEq ι] in
/-- The innermost call is about to decrement: there is something to take off. -/
theorem pred (h : Inv s) {pc : Pc} {outer : List Pc} (ht : s.calls t = pc :: outer)
    (hpc : pc.decrements = true) :
    0 < s.pendingAccepts_ ∧ sub64 s.pendingAccepts_ 1 = s.pendingAccepts_ - 1 := by
  have hpos := h.pos_of_decrements (t := t) (by rw [ht]; exact List.mem_cons_self) hpc
  have hle := h.le
  rw [kAcceptCount] at hle
  exact ⟨hpos, sub64_of_le hpos (by omega)⟩

/-- **Step lemma**, for a statement of a call. -/
theorem run (h : Inv s) {created : Bool} {acceptEx : BoolResult}
    (hrun : Listener.run t created acceptEx s = some s') : Inv s' := by
  have hle := h.le
  unfold Listener.run at hrun
  cases ht : s.calls t with
  | nil =>
      rw [ht] at hrun
      cases hrun
  | cons pc outer =>
      rw [ht] at hrun
      cases hrun
      have ht' : s.calls t = [pc] ++ outer := ht
      cases pc with
      | decrement =>
          obtain ⟨hpos, hpred⟩ := h.pred ht rfl
          simp only [hpred]
          refine h.replace [_] [.load] ht' (by omega) (by simp) ?_
          change s.pendingAccepts_ - 1 + 1 + _ + _ = s.pendingAccepts_ + 0 + _ + _
          omega
      | load =>
          dsimp only
          split_ifs with hfull
          · exact h.replace [_] [] ht' hle (by simp) rfl
          · exact h.replace [_] [.compareExchange _] ht' hle (by simpa using hfull) rfl
      | compareExchange current =>
          dsimp only
          split_ifs with hsame
          · have hlt := h.current t current (by rw [ht]; exact List.mem_cons_self)
            have hlt' := hlt
            rw [kAcceptCount] at hlt'
            rw [add64_of_lt (by omega)]
            refine h.replace [_] [.createSession] ht' hlt (by simp) ?_
            change current + 1 + 0 + _ + _ = s.pendingAccepts_ + 1 + _ + _
            omega
          · exact h.replace [_] [.load] ht' hle (by simp) rfl
      | createSession =>
          cases created
          · exact h.replace [_] [.noSession] ht' hle (by simp) rfl
          · exact h.replace [_] [.registerAccept] ht' hle (by simp) rfl
      | noSession =>
          obtain ⟨hpos, hpred⟩ := h.pred ht rfl
          simp only [hpred]
          refine h.replace [_] [] ht' (by omega) (by simp) ?_
          change s.pendingAccepts_ - 1 + 1 + _ + _ = s.pendingAccepts_ + 0 + _ + _
          omega
      | registerAccept =>
          simp only [registerAccept_eq, if_true]
          refine h.replace [_] [.setListener] ht' hle (by simp) ?_
          change s.pendingAccepts_ + 1 + _ + _ = s.pendingAccepts_ + 0 + _ + _
          split_ifs <;> omega
      | notRegistered =>
          obtain ⟨hpos, hpred⟩ := h.pred ht rfl
          simp only [hpred]
          refine h.replace [_] [.disconnect] ht' (by omega) (by simp) ?_
          change s.pendingAccepts_ - 1 + 1 + _ + _ = s.pendingAccepts_ + 0 + _ + _
          omega
      | disconnect => exact h.replace [_] [] ht' hle (by simp) rfl
      | setListener => exact h.replace [_] [.load] ht' hle (by simp) rfl

/-- **Step lemma**: no event breaks it. -/
theorem step (h : Inv s) {e : Event ι} (he : Listener.step s e = some s') : Inv s' := by
  cases e with
  | call t =>
      cases he
      exact h.replace [] [.load] rfl h.le (by simp) rfl
  | complete t =>
      simp only [Listener.step] at he
      split_ifs at he with hzero
      cases he
      refine h.replace [] [.decrement] rfl h.le (by simp) ?_
      change s.pendingAccepts_ + 0 + _ + _ = s.pendingAccepts_ + 1 + _ + _
      omega
  | run t created acceptEx => exact h.run he

end Inv

/-! ## runs -/

variable {ok : Event ι → Prop} {s : State ι}

omit [Fintype ι] in
theorem Reachable.mono {ok' : Event ι → Prop} (hok : ∀ e, ok e → ok' e) (h : Reachable ok s) :
    Reachable ok' s := by
  induction h with
  | start => exact .start
  | step _ he hstep ih => exact ih.step (hok _ he) hstep

/-- **Run lemma**. -/
theorem Reachable.inv (h : Reachable ok s) : Inv s := by
  induction h with
  | start =>
      have hzero : ∀ at_, (Listener.start ι).count at_ = 0 := fun _ => Finset.sum_const_zero
      exact ⟨Nat.zero_le _, fun _ _ hmem => absurd hmem List.not_mem_nil, by
        rw [hzero, hzero]
        rfl⟩
  | step _ _ he ih => exact ih.step he

omit [Fintype ι] in
/-- Where every `AcceptEx` posts an operation, none is refused. -/
theorem refused_eq_zero (h : Reachable Event.Posts s) : s.refused = 0 := by
  induction h with
  | start => rfl
  | @step s s' e _ hok he ih =>
      cases e with
      | call t =>
          cases he
          exact ih
      | complete t =>
          simp only [step] at he
          split_ifs at he
          cases he
          exact ih
      | run t created acceptEx =>
          have hposts : acceptEx.posted = true := hok
          simp only [step, run] at he
          cases ht : s.calls t with
          | nil =>
              rw [ht] at he
              cases he
          | cons pc outer =>
              rw [ht] at he
              rw [← Option.some.inj he]
              cases pc <;> dsimp only <;> (try split_ifs) <;> simp only [State.put, ih]

/-- **Accept accounting**: the count is right exactly while no `AcceptEx` has
been refused, so always when every one posts an operation. -/
theorem accounted (h : Reachable ok s) :
    (Accounted s ↔ s.refused = 0) ∧ ((∀ e, ok e → e.Posts) → Accounted s) := by
  have hinv := Reachable.inv h
  have hexact := hinv.exact
  have hiff : Accounted s ↔ s.refused = 0 := by
    constructor
    · intro ha
      have hsame := ha.exact
      omega
    · intro hzero
      exact ⟨hinv.le, fun t pc hmem hpc => hinv.pos_of_decrements hmem hpc, by omega⟩
  exact ⟨hiff, fun hposts => hiff.mpr (refused_eq_zero (h.mono hposts))⟩

/-- Some events in a row, if they can happen. -/
def play : List (Event ι) → State ι → Option (State ι)
  | [], s => some s
  | e :: es, s => (step s e).bind (play es)

omit [Fintype ι] in
/-- They lead from one state reached to another. -/
theorem Reachable.play {es : List (Event ι)} (hok : ∀ e ∈ es, ok e) {s s' : State ι}
    (h : Reachable ok s) (hplay : Listener.play es s = some s') : Reachable ok s' := by
  induction es generalizing s with
  | nil =>
      cases hplay
      exact h
  | cons e es ih =>
      rw [Listener.play] at hplay
      obtain ⟨s₁, hstep, hrest⟩ := Option.bind_eq_some_iff.mp hplay
      exact ih (fun e he => hok e (List.mem_cons_of_mem _ he))
        (h.step (hok e List.mem_cons_self) hstep) hrest

/-- A turn of `PostAccept` up to its `AcceptEx`. -/
def posting (t : ι) (acceptEx : BoolResult) : List (Event ι) :=
  [.call t, .run t true acceptEx, .run t true acceptEx, .run t true acceptEx,
    .run t true acceptEx]

omit [DecidableEq ι] [Fintype ι] in
theorem posts_posting {t : ι} {acceptEx : BoolResult} (h : acceptEx.posted = true) :
    ∀ e ∈ posting t acceptEx, e.Posts := by
  simp [posting, Event.Posts, h]

/-- Two threads have each posted an accept, the second of which has completed. -/
theorem accounted_two : ∃ s : State (Fin 2), s.pendingAccepts_ = 2 ∧ s.outstanding = 1 ∧
    Accounted s := by
  have hplay : ∃ s, play (posting 0 ⟨true, 0⟩ ++ posting 1 ⟨false, WSA_IO_PENDING⟩ ++
      [.complete 0]) (start (Fin 2)) = some s ∧ s.pendingAccepts_ = 2 ∧ s.outstanding = 1 :=
    ⟨_, rfl, rfl, rfl⟩
  obtain ⟨s, hs, hpending, houtstanding⟩ := hplay
  have hreach : Reachable Event.Posts s := by
    refine Reachable.start.play (fun e he => ?_) hs
    rcases List.mem_append.mp he with he | he
    · rcases List.mem_append.mp he with he | he
      · exact posts_posting rfl e he
      · exact posts_posting rfl e he
    · rw [List.mem_singleton.mp he]
      trivial
  exact ⟨s, hpending, houtstanding, (accounted hreach).2 fun e he => he⟩

/-- An `AcceptEx` that fails with `WSAENOBUFS` stays counted, with no accept
outstanding and none on its way. -/
theorem failed_accept_counts : ∃ s : State (Fin 1), Reachable (fun _ => True) s ∧
    ¬ Accounted s := by
  have hplay : ∃ s, play (posting 0 ⟨false, 10055⟩) (start (Fin 1)) = some s ∧
      s.pendingAccepts_ = 1 ∧ s.outstanding = 0 ∧ s.calls 0 = [.setListener] :=
    ⟨_, rfl, rfl, rfl, rfl⟩
  obtain ⟨s, hs, hpending, houtstanding, hcalls⟩ := hplay
  refine ⟨s, Reachable.start.play (fun _ _ => trivial) hs, fun ha => ?_⟩
  have hexact := ha.exact
  simp [State.count, hpending, houtstanding, hcalls, Pc.completed, Pc.posting] at hexact

end Listener

end ServerStudy
