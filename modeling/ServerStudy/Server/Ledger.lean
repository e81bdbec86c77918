import Mathlib.Tactic.MkIffOfInductiveProp
import ServerStudy.Server.World

/-!
# ServerStudy.Server.Ledger

The books of one slot: what the threads are about to do with it, as a multiset
of stages, against what its memory and its socket are like, as an account of
small numbers.

* `Occupied` to `Quiet` — the sides of the books.  A reference is a pointer in memory or of a
  thread; the right to use an `OverlappedEx` is in one place at a time; whoever has it, or has an
  operation outstanding, finds the pointers in place.
* `Balanced` — the books agree, side by side (`Balanced.sides`).
* the lemmas after it — what each action does to the account and to the stages, and that the
  books agree afterwards: most sides by their own numbers, the others by what is said first.

Between the parts of an operation on a pointer in memory, the pointer is in place and the count
is not, or the other way round.  The thread has a pointer of its own then, which stands in for it:
the stage is one whose pointer is not counted.
-/

namespace ServerStudy

namespace Server

/-! ## stages -/

/-- What a thread is about to do with a slot. -/
inductive Stage where
  /-- `Acquire`: the slot is popped -/
  | popped
  /-- `CreateSession`: it is acquired -/
  | born
  /-- its `sessionManager_` is written -/
  | managed
  /-- its `handle_` is written -/
  | named
  /-- it is in the array -/
  | listed
  /-- `PostAccept`: `CreateSession` has returned -/
  | fresh
  /-- `ioType_` is written -/
  | typed
  /-- `sessionPtr_` is written, and not counted -/
  | arming
  /-- it is counted -/
  | armed
  /-- `AcceptEx` was called -/
  | unset
  /-- nothing, but it has a pointer -/
  | ref
  /-- `WorkerThread`: a completion is dequeued -/
  | held (op : SocketOp)
  /-- the `OverlappedEx` has lost its pointer -/
  | own (op : SocketOp)
  /-- `Clear`: the pointer in the array is not counted any more -/
  | clearing
  /-- `RegisterRead`: nothing is done yet -/
  | reader
  | typedRecv
  /-- `GetSession` has found nothing -/
  | deafRecv
  | armedRecv
  /-- `Disconnect`: the state is changed -/
  | closer
  | typedDisconnect
  | armedDisconnect
  /-- the last release: the count is zero -/
  | released
  /-- the deleter: `readOv_` is reset -/
  | cleanedRead
  /-- so is `writeOv_` -/
  | cleanedWrite
  /-- `isSending_` is cleared -/
  | quieted
  /-- so is `handle_` -/
  | untitled
  /-- nothing, but the slot was used before -/
  | seen
  deriving DecidableEq

namespace Stage

/-- The stages with a counted pointer. -/
@[simp] def counts : Stage → Bool
  | popped | listed | arming | held _ | clearing | released | cleanedRead | cleanedWrite | quieted
  | untitled | seen => false
  | _ => true

/-- Those of a session that was accepted. -/
@[simp] def under : Stage → Bool
  | own _ | reader | typedRecv | deafRecv | armedRecv | closer | typedDisconnect
  | armedDisconnect => true
  | _ => false

/-- The one before the first count. -/
@[simp] def pops : Stage → Bool
  | popped => true
  | _ => false

/-- Those that have not written `sessionManager_`. -/
@[simp] def unmanaged : Stage → Bool
  | popped | born => true
  | _ => false

/-- Those of a session not in the array yet. -/
@[simp] def births : Stage → Bool
  | popped | born | managed | named => true
  | _ => false

/-- Those before `AcceptEx`. -/
@[simp] def starts : Stage → Bool
  | popped | born | managed | named | listed | fresh | typed | arming | armed => true
  | _ => false

/-- Those before `SetListener`. -/
@[simp] def unready : Stage → Bool
  | popped | born | managed | named | listed | fresh | typed | arming | armed | unset => true
  | _ => false

/-- Those before it that have written `handle_`. -/
@[simp] def titles : Stage → Bool
  | named | listed | fresh | typed | arming | armed => true
  | _ => false

/-- Those after it. -/
@[simp] def accepts : Stage → Bool
  | held .accept | own .accept => true
  | _ => false

@[simp] def receives : Stage → Bool
  | held .recv | own .recv | reader | typedRecv | deafRecv | armedRecv => true
  | _ => false

@[simp] def sends : Stage → Bool
  | held .send | own .send => true
  | _ => false

@[simp] def closes : Stage → Bool
  | held .disconnect | own .disconnect | clearing | closer | typedDisconnect
  | armedDisconnect => true
  | _ => false

/-- Those before `DisconnectEx`. -/
@[simp] def calls : Stage → Bool
  | closer | typedDisconnect | armedDisconnect => true
  | _ => false

/-- Those after a disconnect was delivered. -/
@[simp] def closed : Stage → Bool
  | held .disconnect | own .disconnect | clearing => true
  | _ => false

/-- Those that need the pointer in `readOv_`. -/
@[simp] def needsRead : Stage → Bool
  | arming | armed | held .accept | held .recv => true
  | _ => false

/-- Those that need it null. -/
@[simp] def needsNoRead : Stage → Bool
  | popped | born | managed | named | listed | fresh | typed | own .accept | own .recv | reader
  | typedRecv | deafRecv => true
  | _ => false

/-- Those that need the pointer in `readOv_`, or the socket closed. -/
@[simp] def armsRead : Stage → Bool
  | armedRecv => true
  | _ => false

/-- Those that need the socket closed. -/
@[simp] def needsClosed : Stage → Bool
  | deafRecv => true
  | _ => false

@[simp] def needsWrite : Stage → Bool
  | held .send => true
  | _ => false

@[simp] def needsDisconnect : Stage → Bool
  | held .disconnect | armedDisconnect => true
  | _ => false

@[simp] def needsNoDisconnect : Stage → Bool
  | closer | typedDisconnect => true
  | _ => false

/-- Those that need `kAccept`, `kRecv` or `kDisconnect` in an `ioType_`. -/
@[simp] def typesAccept : Stage → Bool
  | typed | arming | armed | held .accept | own .accept => true
  | _ => false

@[simp] def typesRecv : Stage → Bool
  | typedRecv | deafRecv | armedRecv | held .recv | own .recv => true
  | _ => false

@[simp] def typesDisconnect : Stage → Bool
  | typedDisconnect | armedDisconnect | held .disconnect | own .disconnect => true
  | _ => false

/-- Those that come to nothing once the session is closing. -/
@[simp] def yields : Stage → Bool
  | own .accept | own .recv | own .send | reader => true
  | _ => false

/-- Those of a last release. -/
@[simp] def ends : Stage → Bool
  | released | cleanedRead | cleanedWrite | quieted | untitled => true
  | _ => false

/-- Those in which the deleter has reset `readOv_`. -/
@[simp] def clearsRead : Stage → Bool
  | cleanedRead | cleanedWrite | quieted | untitled => true
  | _ => false

@[simp] def clearsWrite : Stage → Bool
  | cleanedWrite | quieted | untitled => true
  | _ => false

@[simp] def quiets : Stage → Bool
  | quieted | untitled => true
  | _ => false

@[simp] def untitles : Stage → Bool
  | untitled => true
  | _ => false

@[simp] def past : Stage → Bool
  | seen => true
  | _ => false

end Stage

/-- How many of the stages are such. -/
def tally (F : Multiset Stage) (p : Stage → Bool) : Nat := F.countP (p ·)

@[simp] theorem tally_zero (p : Stage → Bool) : tally 0 p = 0 := rfl

@[simp] theorem tally_cons (k : Stage) (F : Multiset Stage) (p : Stage → Bool) :
    tally (k ::ₘ F) p = tally F p + (p k).toNat := by
  rw [tally, Multiset.countP_cons]
  cases p k <;> rfl

/-- What is such is one of two kinds. -/
theorem tally_le_add {p q r : Stage → Bool} (h : ∀ k, p k = true → q k = true ∨ r k = true)
    (F : Multiset Stage) : tally F p ≤ tally F q + tally F r := by
  induction F using Multiset.induction_on with
  | empty => exact Nat.le_refl 0
  | cons k F ih =>
      have hk := h k
      simp only [tally_cons]
      cases hp : p k with
      | false =>
          simp only [Bool.toNat_false]
          omega
      | true =>
          rcases hk hp with hq | hr
          · simp only [hq, Bool.toNat_true]
            omega
          · simp only [hr, Bool.toNat_true]
            omega

theorem tally_pos {F : Multiset Stage} {p : Stage → Bool} {k : Stage} (hk : k ∈ F)
    (hp : p k = true) : 0 < tally F p := Multiset.countP_pos.mpr ⟨k, hk, hp⟩

/-- Where nothing is about to be done. -/
theorem tally_of_seen {F : Multiset Stage} (h : ∀ k ∈ F, k = .seen) {p : Stage → Bool}
    (hp : p .seen = false) : tally F p = 0 :=
  Multiset.countP_eq_zero.mpr fun k hk => by simp [h k hk, hp]

/-- Nothing at all is about to be done. -/
theorem tallies_of_seen {F : Multiset Stage} (h : ∀ k ∈ F, k = .seen) :
    tally F Stage.counts = 0 ∧ tally F Stage.births = 0 ∧ tally F Stage.starts = 0 ∧
    tally F Stage.titles = 0 ∧ tally F Stage.accepts = 0 ∧ tally F Stage.receives = 0 ∧
    tally F Stage.sends = 0 ∧
    tally F Stage.closes = 0 ∧ tally F Stage.calls = 0 ∧ tally F Stage.closed = 0 ∧
    tally F Stage.needsRead = 0 ∧ tally F Stage.needsNoRead = 0 ∧ tally F Stage.armsRead = 0 ∧
    tally F Stage.needsClosed = 0 ∧
    tally F Stage.needsWrite = 0 ∧ tally F Stage.needsDisconnect = 0 ∧
    tally F Stage.needsNoDisconnect = 0 ∧ tally F Stage.typesAccept = 0 ∧
    tally F Stage.typesRecv = 0 ∧ tally F Stage.typesDisconnect = 0 ∧
    tally F Stage.unmanaged = 0 ∧ tally F Stage.unready = 0 ∧ tally F Stage.pops = 0 ∧
    tally F Stage.ends = 0 ∧ tally F Stage.clearsRead = 0 ∧ tally F Stage.clearsWrite = 0 ∧
    tally F Stage.quiets = 0 ∧ tally F Stage.untitles = 0 := by
  and_intros <;> exact tally_of_seen h rfl

/-- How the kinds of stages lie within each other. -/
theorem tallies_le (F : Multiset Stage) :
    tally F Stage.births ≤ tally F Stage.starts ∧ tally F Stage.titles ≤ tally F Stage.starts ∧
    tally F Stage.typesAccept ≤ tally F Stage.starts + tally F Stage.accepts ∧
    tally F Stage.typesRecv ≤ tally F Stage.receives ∧
    tally F Stage.armsRead ≤ tally F Stage.receives ∧
    tally F Stage.needsClosed ≤ tally F Stage.receives ∧
    tally F Stage.closed ≤ tally F Stage.closes ∧
    tally F Stage.calls ≤ tally F Stage.closes ∧
    tally F Stage.typesDisconnect ≤ tally F Stage.closes ∧
    tally F Stage.needsWrite ≤ tally F Stage.sends ∧
    tally F Stage.needsRead ≤
      tally F Stage.starts + (tally F Stage.accepts + tally F Stage.receives) ∧
    tally F Stage.needsNoRead ≤
      tally F Stage.starts + (tally F Stage.accepts + tally F Stage.receives) ∧
    tally F Stage.unmanaged ≤ tally F Stage.starts ∧
    tally F Stage.starts ≤ tally F Stage.unready ∧ tally F Stage.pops ≤ tally F Stage.unmanaged ∧
    tally F Stage.untitles ≤ tally F Stage.quiets ∧
    tally F Stage.quiets ≤ tally F Stage.clearsWrite ∧
    tally F Stage.clearsWrite ≤ tally F Stage.clearsRead ∧
    tally F Stage.clearsRead ≤ tally F Stage.ends := by
  have hle : ∀ {p q : Stage → Bool}, (∀ k, p k = true → q k = true) → tally F p ≤ tally F q :=
    fun h => by simpa [tally] using tally_le_add (r := fun _ => false) (fun k hk => .inl (h k hk)) F
  have hmore := tally_le_add (p := fun k => k.accepts || k.receives) (q := Stage.accepts)
    (r := Stage.receives) (fun k => by simp) F
  have hadd : ∀ {p : Stage → Bool}, (∀ k, p k = true → k.starts = true ∨
      (k.accepts || k.receives) = true) →
      tally F p ≤ tally F Stage.starts + (tally F Stage.accepts + tally F Stage.receives) :=
    fun h => (tally_le_add h F).trans (Nat.add_le_add_left hmore _)
  refine ⟨hle fun k => ?_, hle fun k => ?_, tally_le_add (fun k => ?_) F, hle fun k => ?_,
    hle fun k => ?_, hle fun k => ?_, hle fun k => ?_, hle fun k => ?_, hle fun k => ?_,
    hle fun k => ?_, hadd fun k => ?_, hadd fun k => ?_, hle fun k => ?_, hle fun k => ?_,
    hle fun k => ?_, hle fun k => ?_, hle fun k => ?_, hle fun k => ?_, hle fun k => ?_⟩
  all_goals cases k with
    | held op | own op => cases op <;> decide
    | _ => decide

/-- Without counted pointers and without those in memory, nothing is about to
be done, where the slot is neither acquired nor released just now. -/
theorem eq_seen {F : Multiset Stage} (hcounts : tally F Stage.counts = 0)
    (hstarts : tally F Stage.starts = 0) (hcloses : tally F Stage.closes = 0)
    (hread : tally F Stage.needsRead = 0) (hwrite : tally F Stage.needsWrite = 0)
    (hends : tally F Stage.ends = 0) : ∀ k ∈ F, k = .seen := by
  intro k hk
  have hnot : ∀ p : Stage → Bool, tally F p = 0 → p k = false := fun p hp => by
    by_contra hpk
    have hpos := tally_pos hk (by simpa using hpk)
    omega
  have h₁ := hnot _ hcounts
  have h₂ := hnot _ hstarts
  have h₃ := hnot _ hcloses
  have h₄ := hnot _ hread
  have h₅ := hnot _ hwrite
  have h₆ := hnot _ hends
  cases k with
  | held op => cases op <;> simp_all
  | _ => simp_all

/-! ## accounts -/

/-- What a slot is like.  `idle` to `closing` are one in that state and zero
otherwise, and so are the flags; `entry`, `read`, `write` and `disc` count the
pointer in the array and those in the `OverlappedEx`; `accept` to `disconnect`
are the outstanding operations. -/
@[ext] structure Account where
  idle : Nat
  pending : Nat
  connected : Nat
  closing : Nat
  refs : Nat
  entry : Nat
  read : Nat
  write : Nat
  disc : Nat
  /-- pointers to anything else -/
  stray : Nat
  accept : Nat
  recv : Nat
  send : Nat
  disconnect : Nat
  closed : Nat
  accepted : Nat
  disconnects : Nat
  sending : Nat
  /-- a position in `readOv_` or `writeOv_` is not zero -/
  dirtyRead : Nat
  dirtyWrite : Nat
  ioAccept : Nat
  ioRecv : Nat
  ioSend : Nat
  ioDisconnect : Nat
  /-- `handle_` is the slot's handle, or it is invalid -/
  named : Nat
  unnamed : Nat
  /-- `sessionManager_` and `listener_` are set -/
  managed : Nat
  listener : Nat
  /-- `SetListener` was called, and the completion of an accept dequeued -/
  listening : Nat
  dequeued : Nat

open Stage

/-- What is assumed of a run. -/
structure Terms where
  /-- a `Broadcast` is one step -/
  whole : Bool := false
  /-- disconnects are posted, and succeed -/
  prompt : Bool := false
  /-- accepts are posted -/
  accepting : Bool := false
  /-- their completions are dequeued after `SetListener` -/
  patient : Bool := false

/-- The state of the slot, and its references. -/
@[mk_iff] structure Occupied (v : Account) (F : Multiset Stage) : Prop where
  state : v.idle + v.pending + v.connected + v.closing = 1
  stray : v.stray = 0
  refs : v.refs = v.entry + v.read + v.write + v.disc + tally F counts
  idle : v.idle = 0 ∨ v.refs = 0
  alive : 1 ≤ v.idle + v.refs + tally F pops + tally F ends
  acquired : tally F pops = 0 ∨ v.refs = 0
  releasing : tally F ends ≤ v.closing
  released : tally F ends = 0 ∨ v.refs = 0

/-- Who has `readOv_`, and what for. -/
@[mk_iff] structure Reading (v : Account) (F : Multiset Stage) : Prop where
  starting : tally F starts ≤ v.pending
  accepting : v.accept + tally F accepts ≤ v.pending + v.closing
  receiving : v.recv + tally F receives ≤ v.connected + v.closing
  readers : tally F starts + v.accept + tally F accepts + v.recv + tally F receives ≤ 1
  ioAccept : v.accept + tally F typesAccept ≤ v.ioAccept
  ioRecv : v.recv + tally F typesRecv ≤ v.ioRecv

/-- The pointer in `readOv_`: who needs it, and who needs it null. -/
@[mk_iff] structure Aimed (v : Account) (F : Multiset Stage) : Prop where
  readCell : v.accept + v.recv + tally F needsRead ≤ v.read
  readFree : tally F needsNoRead + v.read ≤ 1
  readArmed : tally F armsRead ≤ v.read + v.closed
  readDeaf : tally F needsClosed ≤ v.closed
  openRead : v.read + v.accepted ≤
    1 + v.closed + v.accept + v.recv + tally F needsRead + tally F armsRead
  usedRead : v.read + v.connected + v.closing ≤
    1 + v.accept + v.recv + tally F needsRead + tally F armsRead

/-- Who has `writeOv_`. -/
@[mk_iff] structure Writing (v : Account) (F : Multiset Stage) : Prop where
  senders : v.send + tally F sends ≤ v.sending
  sending : v.sending ≤ 1
  started : tally F starts + v.send + tally F sends ≤ 1
  writeCell : v.write = v.send + tally F needsWrite
  ioSend : v.send + tally F sends ≤ v.ioSend

/-- Who has `disconnectOv_`. -/
@[mk_iff] structure Closing (m : Terms) (v : Account) (F : Multiset Stage) : Prop where
  closers : v.disconnect + tally F closes ≤ v.closing
  closersEntry : v.disconnect + tally F closes ≤ v.entry
  discCell : v.disconnect + tally F needsDisconnect ≤ v.disc
  discUsed : v.disc + m.prompt.toNat ≤ 1 + v.disconnect + tally F needsDisconnect
  discFree : v.pending + v.connected + tally F needsNoDisconnect + v.disc ≤ 1
  callers : v.disconnects + tally F calls = v.closing
  ioDisconnect : v.disconnect + tally F typesDisconnect ≤ v.ioDisconnect

/-- The array and the handle. -/
@[mk_iff] structure Filed (v : Account) (F : Multiset Stage) : Prop where
  entry : v.pending + v.connected ≤ v.entry + tally F births
  entryOne : v.entry + tally F births ≤ 1
  handle : v.named + v.unnamed = 1
  handleUsed : v.pending + v.connected + v.closing ≤ v.named + tally F births + tally F untitles
  handleGone : tally F untitles ≤ v.unnamed
  handleEntry : v.entry ≤ v.named
  handleStage : tally F titles ≤ v.named

/-- Whether the socket was accepted. -/
@[mk_iff] structure Accepted (v : Account) (F : Multiset Stage) : Prop where
  acceptedOne : v.accepted ≤ 1
  accepted : v.connected + v.closing ≤ v.accepted
  acceptedStage : v.accept + tally F accepts ≤ v.accepted
  acceptedSend : v.send + tally F sends ≤ v.accepted
  acceptedPast : tally F past = 0 ∨ v.accepted = 1
  usedClosed : v.accepted ≤ v.closed + v.entry
  startClosed : v.accepted + tally F starts ≤ 1 + v.closed

/-- Whether it is closed. -/
@[mk_iff] structure Opened (v : Account) (F : Multiset Stage) : Prop where
  closedOne : v.closed ≤ 1
  closedStage : tally F Stage.closed ≤ v.closed
  acceptOpen : v.pending + v.accept + tally F accepts + v.closed ≤ 2
  sendOpen : v.pending + v.send + tally F sends + v.closed ≤ 2
  connectedOpen : v.connected + v.closed ≤ 1

/-- Who is to go on with the session; where nobody is, it keeps itself. -/
@[mk_iff] structure Going (m : Terms) (v : Account) (F : Multiset Stage) : Prop where
  pending : v.pending + m.accepting.toNat ≤ 1 + v.accept + tally F accepts + tally F starts
  connected : v.connected ≤ v.recv + tally F receives
  closing : v.closing + v.entry + m.prompt.toNat ≤ 2 + v.disconnect + tally F closes
  pendingKept : v.pending ≤ v.accept + tally F accepts + tally F starts + v.read
  closingKept : v.closing + v.entry ≤ 1 + v.disc + tally F closes
  wholeOne : m.whole.toNat ≤ 1
  promptOne : m.prompt.toNat ≤ 1
  acceptingOne : m.accepting.toNat ≤ 1

/-- Whether the session is set up. -/
@[mk_iff] structure Ready (m : Terms) (v : Account) (F : Multiset Stage) : Prop where
  managed : 1 ≤ v.idle + v.managed + tally F unmanaged
  listening : v.idle + v.listening + tally F unready = 1
  listener : v.listening ≤ v.listener
  dequeued : v.idle + v.dequeued ≤ 1
  used : v.connected + v.closing ≤ v.accept + v.dequeued
  taken : tally F accepts ≤ v.dequeued
  patient : v.dequeued + m.patient.toNat ≤ 1 + v.listening
  patientOne : m.patient.toNat ≤ 1

/-- Where a `Broadcast` is one step, a session is clean until it is connected, and once the
deleter has cleaned it. -/
@[mk_iff] structure Quiet (m : Terms) (v : Account) (F : Multiset Stage) : Prop where
  quiet : v.sending + m.whole.toNat ≤ 1 + v.connected + v.closing
  quieted : v.sending + m.whole.toNat + tally F quiets ≤ 2
  cleanRead : v.dirtyRead + m.whole.toNat ≤ 1 + v.connected + v.closing
  cleanedRead : v.dirtyRead + m.whole.toNat + tally F clearsRead ≤ 2
  cleanWrite : v.dirtyWrite + m.whole.toNat ≤ 1 + v.connected + v.closing
  cleanedWrite : v.dirtyWrite + m.whole.toNat + tally F clearsWrite ≤ 2

/-- The account and the stages agree, in a run of which `m` is assumed. -/
structure Balanced (m : Terms) (v : Account) (F : Multiset Stage) : Prop extends
  Occupied v F, Reading v F, Aimed v F, Writing v F, Closing m v F, Filed v F, Accepted v F,
  Opened v F, Going m v F, Ready m v F, Quiet m v F

/-- Where a `Broadcast` is one step, what is sent on is connected, or closing and not released. -/
def InUse (m : Terms) (v : Account) (F : Multiset Stage) : Prop :=
  m.whole.toNat + tally F ends ≤ v.connected + v.closing

variable {m : Terms} {v v' : Account} {F F' : Multiset Stage} {k : Stage}

/-- The books agree side by side. -/
theorem Balanced.sides (h : Balanced m v F)
    (hoccupied : Occupied v F → Occupied v' F')
    (hreading : Reading v F → Reading v' F')
    (haimed : Aimed v F → Aimed v' F')
    (hwriting : Writing v F → Writing v' F')
    (hclosing : Closing m v F → Closing m v' F')
    (hfiled : Filed v F → Filed v' F')
    (haccepted : Accepted v F → Accepted v' F')
    (hopened : Opened v F → Opened v' F')
    (hgoing : Going m v F → Going m v' F')
    (hready : Ready m v F → Ready m v' F')
    (hquiet : Quiet m v F → Quiet m v' F') :
    Balanced m v' F' :=
  ⟨hoccupied h.toOccupied, hreading h.toReading, haimed h.toAimed, hwriting h.toWriting,
    hclosing h.toClosing, hfiled h.toFiled, haccepted h.toAccepted, hopened h.toOpened,
    hgoing h.toGoing, hready h.toReady, hquiet h.toQuiet⟩

namespace Balanced

/-- An idle slot has no business but the past. -/
theorem eq_seen (h : Balanced m v F) (hidle : v.idle = 1) : ∀ k ∈ F, k = .seen := by
  have hstate := h.state
  have hfree := h.idle
  have hr := h.refs
  have hs := h.starting
  have hclosers := h.closers
  have hreleasing := h.releasing
  have hread := h.readCell
  have hwrite := h.writeCell
  exact Server.eq_seen (by omega) (by omega) (by omega) (by omega) (by omega) (by omega)

/-- Nor has one whose last pointer was dropped, but for the release. -/
theorem released_of_ends (h : Balanced m v (k ::ₘ F)) (hk : ends k = true) :
    v.refs = 0 ∧ v.closing = 1 ∧ ∀ j ∈ F, j = .seen := by
  have hle := tallies_le F
  have hstate := h.state
  have hgone := h.released
  have hr := h.refs
  have hs := h.starting
  have hclosersEntry := h.closersEntry
  have hreleasing := h.releasing
  have hread := h.readCell
  have hwrite := h.writeCell
  simp only [tally_cons, hk, Bool.toNat_true] at hgone hreleasing
  simp only [tally_cons] at hr hs hclosersEntry hread hwrite
  exact ⟨by omega, by omega, Server.eq_seen (by omega) (by omega) (by omega) (by omega)
    (by omega) (by omega)⟩

/-- A slot with nothing in memory and nobody about to use it. -/
theorem of_seen {v : Account} (hF : ∀ k ∈ F, k = .seen)
    (hstate : v.idle = 1 ∧ v.pending = 0 ∧ v.connected = 0 ∧ v.closing = 0)
    (hrefs : v.refs = 0 ∧ v.entry = 0 ∧ v.read = 0 ∧ v.write = 0 ∧ v.disc = 0 ∧ v.stray = 0)
    (hposted : v.accept = 0 ∧ v.recv = 0 ∧ v.send = 0 ∧ v.disconnect = 0 ∧ v.disconnects = 0)
    (hhandle : v.named + v.unnamed = 1) (hclosed : v.closed ≤ 1) (haccepted : v.accepted ≤ v.closed)
    (hpast : tally F past = 0 ∨ v.accepted = 1) (hready : v.listening = 0 ∧ v.dequeued = 0)
    (hsending : v.sending + m.whole.toNat ≤ 1)
    (hclean : v.dirtyRead + m.whole.toNat ≤ 1 ∧ v.dirtyWrite + m.whole.toNat ≤ 1) :
    Balanced m v F := by
  have hzero := tallies_of_seen hF
  have hwhole := Bool.toNat_le m.whole
  have hprompt := Bool.toNat_le m.prompt
  have haccepting := Bool.toNat_le m.accepting
  have hpatient := Bool.toNat_le m.patient
  exact ⟨(occupied_iff ..).mpr (by omega), (reading_iff ..).mpr (by omega),
    (aimed_iff ..).mpr (by omega), (writing_iff ..).mpr (by omega), (closing_iff ..).mpr (by omega),
    (filed_iff ..).mpr (by omega), (accepted_iff ..).mpr (by omega), (opened_iff ..).mpr (by omega),
    (going_iff ..).mpr (by omega), (ready_iff ..).mpr (by omega), (quiet_iff ..).mpr (by omega)⟩

/-! ## a session that was accepted -/

/-- What it is used for. -/
theorem used_of_under (hkind : under k = true) :
    accepts k = true ∨ receives k = true ∨ sends k = true ∨ closes k = true := by
  cases k with
  | held op | own op => cases op <;> simp at hkind ⊢
  | _ => simp at hkind ⊢

/-- With one of these the start is over. -/
theorem started_of_mem (h : Balanced m v F) (hk : k ∈ F) (hkind : under k = true) :
    tally F starts = 0 ∧ v.accepted = 1 := by
  have hr := h.readers
  have hs := h.started
  have hst := h.starting
  have hone := h.state
  have hc := h.closers
  have hrec := h.receiving
  have h₁ := h.acceptedStage
  have h₂ := h.acceptedSend
  have h₃ := h.accepted
  have h₄ := h.acceptedOne
  rcases used_of_under hkind with hp | hp | hp | hp
  · have hpos := tally_pos hk hp
    omega
  · have hpos := tally_pos hk hp
    omega
  · have hpos := tally_pos hk hp
    omega
  · have hpos := tally_pos hk hp
    omega

/-- And the session carries the slot's handle. -/
theorem named_of_mem (h : Balanced m v F) (hk : k ∈ F) (hkind : under k = true) :
    v.named = 1 := by
  have hstarts := (h.started_of_mem hk hkind).1
  have hle := tallies_le F
  have hcounts : counts k = true := by
    cases k with
    | held op | own op => cases op <;> simp at hkind ⊢
    | _ => simp at hkind ⊢
  have hpos := tally_pos hk hcounts
  have hr := h.refs
  have hi := h.idle
  have hs := h.state
  have hu := h.handleUsed
  have hh := h.handle
  have hgone := h.released
  omega

/-- Until it is closed, its socket is open. -/
theorem open_of_mem (h : Balanced m v F) (hstate : v.pending + v.connected = 1) (hk : k ∈ F)
    (hkind : under k = true) : v.closed = 0 := by
  have hone := h.state
  have hacc := h.acceptOpen
  have hsend := h.sendOpen
  have hconn := h.connectedOpen
  have hrec := h.receiving
  have hclo := h.closers
  rcases used_of_under hkind with hp | hp | hp | hp
  · have hpos := tally_pos hk hp
    omega
  · have hpos := tally_pos hk hp
    omega
  · have hpos := tally_pos hk hp
    omega
  · have hpos := tally_pos hk hp
    omega

/-! ## accepting -/

/-- The slot is popped. -/
theorem pop (h : Balanced m v F) (hidle : v.idle = 1) :
    Balanced m { v with idle := 0, pending := 1 } (popped ::ₘ F) := by
  -- no references: nothing is in memory, so nothing is outstanding either
  have hrefs : v.refs = 0 := by
    have hi := h.idle
    omega
  have hzero := tallies_of_seen (h.eq_seen hidle)
  have hcounted := h.refs
  have hstate := h.state
  have hreadCell := h.readCell
  have hwriteCell := h.writeCell
  exact h.sides (by simp [occupied_iff]; lia) (by simp [reading_iff]; lia)
    (by simp [aimed_iff]; lia) (by simp [writing_iff]; lia) (by simp [closing_iff]; lia)
    (by simp [filed_iff]; lia) (by simp [accepted_iff]; lia) (by simp [opened_iff]; lia)
    (by simp [going_iff]; lia) (by simp [ready_iff]; lia) (by simp [quiet_iff])

/-- It is counted for the first time. -/
theorem acquire (h : Balanced m v (popped ::ₘ F)) :
    Balanced m { v with refs := v.refs + 1 } (born ::ₘ F) := by
  -- one slot is popped by one thread, and is not released meanwhile
  have hle := tallies_le F
  have hstate := h.state
  have hstarting := h.starting
  have hreleasing := h.releasing
  simp at hstarting hreleasing
  exact h.sides (by simp [occupied_iff]; lia) (by simp [reading_iff]) (by simp [aimed_iff])
    (by simp [writing_iff]) (by simp [closing_iff]) (by simp [filed_iff]) (by simp [accepted_iff])
    (by simp [opened_iff]) (by simp [going_iff]) (by simp [ready_iff]) (by simp [quiet_iff])

/-- The manager is written into the session. -/
theorem setManager (h : Balanced m v (born ::ₘ F)) :
    Balanced m { v with managed := 1 } (managed ::ₘ F) :=
  h.sides (by simp [occupied_iff]) (by simp [reading_iff]) (by simp [aimed_iff])
    (by simp [writing_iff]) (by simp [closing_iff]) (by simp [filed_iff]) (by simp [accepted_iff])
    (by simp [opened_iff]) (by simp [going_iff]) (by simp [ready_iff]; lia) (by simp [quiet_iff])

/-- The handle is written into the session. -/
theorem setHandle (h : Balanced m v (managed ::ₘ F)) :
    Balanced m { v with named := 1, unnamed := 0 } (named ::ₘ F) := by
  -- the stages that go by the handle are those before the accept: there is one at most
  have hle := tallies_le F
  have hstate := h.state
  have hstarting := h.starting
  have hreleasing := h.releasing
  simp at hstarting hreleasing
  exact h.sides (by simp [occupied_iff]) (by simp [reading_iff]) (by simp [aimed_iff])
    (by simp [writing_iff]) (by simp [closing_iff]) (by simp [filed_iff]; lia)
    (by simp [accepted_iff]) (by simp [opened_iff]) (by simp [going_iff]) (by simp [ready_iff])
    (by simp [quiet_iff])

/-- The pointer is moved into the array. -/
theorem list (h : Balanced m v (named ::ₘ F)) :
    Balanced m { v with entry := 1 } (listed ::ₘ F) := by
  -- a session that was not in the array: its entry was null
  have hentryOne := h.entryOne
  have hstate := h.state
  have hstarting := h.starting
  simp at hentryOne hstarting
  exact h.sides (by simp [occupied_iff]; lia) (by simp [reading_iff]) (by simp [aimed_iff])
    (by simp [writing_iff]) (by simp [closing_iff]; lia) (by simp [filed_iff]; lia)
    (by simp [accepted_iff]; lia) (by simp [opened_iff]) (by simp [going_iff]; lia)
    (by simp [ready_iff]) (by simp [quiet_iff])

/-- The pointer in the array is copied. -/
theorem fetch (h : Balanced m v (listed ::ₘ F)) :
    Balanced m { v with refs := v.refs + 1 } (fresh ::ₘ F) := by
  -- the slot is pending, and counted by the pointer in the array
  have hle := tallies_le F
  have hstarting := h.starting
  simp at hstarting
  exact h.sides (by simp [occupied_iff]; lia) (by simp [reading_iff]) (by simp [aimed_iff])
    (by simp [writing_iff]) (by simp [closing_iff]) (by simp [filed_iff]) (by simp [accepted_iff])
    (by simp [opened_iff]) (by simp [going_iff]) (by simp [ready_iff]) (by simp [quiet_iff])

theorem setAccept (h : Balanced m v (fresh ::ₘ F)) :
    Balanced m { v with ioAccept := 1, ioRecv := 0 } (typed ::ₘ F) := by
  -- nobody else has a type in `readOv_`: that would be a second reader
  have hle := tallies_le F
  exact h.sides (by simp [occupied_iff]) (by simp [reading_iff]; lia) (by simp [aimed_iff])
    (by simp [writing_iff]) (by simp [closing_iff]) (by simp [filed_iff]) (by simp [accepted_iff])
    (by simp [opened_iff]) (by simp [going_iff]) (by simp [ready_iff]) (by simp [quiet_iff])

/-- The pointer is written into `readOv_`. -/
theorem armAccept (h : Balanced m v (typed ::ₘ F)) :
    Balanced m { v with read := 1 } (arming ::ₘ F) := by
  -- the stage needs the cell to be null, so the pointer is its first
  have hreadFree := h.readFree
  simp at hreadFree
  exact h.sides (by simp [occupied_iff]; lia) (by simp [reading_iff]) (by simp [aimed_iff]; lia)
    (by simp [writing_iff]) (by simp [closing_iff]) (by simp [filed_iff]) (by simp [accepted_iff])
    (by simp [opened_iff]) (by simp [going_iff]; lia) (by simp [ready_iff]) (by simp [quiet_iff])

/-- And counted. -/
theorem countAccept (h : Balanced m v (arming ::ₘ F)) :
    Balanced m { v with refs := v.refs + 1 } (armed ::ₘ F) := by
  -- the pointer in the cell is counted already, by the thread's own
  have hreadCell := h.readCell
  simp at hreadCell
  exact h.sides (by simp [occupied_iff]; lia) (by simp [reading_iff]) (by simp [aimed_iff])
    (by simp [writing_iff]) (by simp [closing_iff]) (by simp [filed_iff]) (by simp [accepted_iff])
    (by simp [opened_iff]) (by simp [going_iff]) (by simp [ready_iff]) (by simp [quiet_iff])

/-- `AcceptEx` posts an accept. -/
theorem listen (h : Balanced m v (armed ::ₘ F)) :
    Balanced m { v with accept := v.accept + 1, closed := 0, accepted := 1 } (unset ::ₘ F) := by
  -- before the accept nobody reads or closes, and a closed socket is opened
  have hle := tallies_le F
  have hstate := h.state
  have hstarting := h.starting
  have hreaders := h.readers
  have hclosers := h.closers
  have hentry := h.entry
  simp at hstarting hreaders hclosers hentry
  exact h.sides (by simp [occupied_iff]) (by simp [reading_iff]; lia) (by simp [aimed_iff]; lia)
    (by simp [writing_iff]; lia) (by simp [closing_iff]) (by simp [filed_iff]; lia)
    (by simp [accepted_iff]; lia) (by simp [opened_iff]; lia) (by simp [going_iff]; lia)
    (by simp [ready_iff]; lia) (by simp [quiet_iff])

/-- It does not. -/
theorem refuse (h : Balanced m v (armed ::ₘ F)) (haccepting : m.accepting = false) :
    Balanced m v (unset ::ₘ F) := by
  -- the pointer stays in the cell, with nobody to use it
  have hstate := h.state
  have hstarting := h.starting
  have hstartClosed := h.startClosed
  have hreadCell := h.readCell
  simp at hstarting hstartClosed hreadCell
  exact h.sides (by simp [occupied_iff]) (by simp [reading_iff]; lia) (by simp [aimed_iff]; lia)
    (by simp [writing_iff]; lia) (by simp [closing_iff]) (by simp [filed_iff]; lia)
    (by simp [accepted_iff]; lia) (by simp [opened_iff]) (by simp [going_iff, haccepting]; lia)
    (by simp [ready_iff]) (by simp [quiet_iff])

/-- `SetListener`. -/
theorem setListener (h : Balanced m v (unset ::ₘ F)) :
    Balanced m { v with listener := 1, listening := 1 } (ref ::ₘ F) :=
  h.sides (by simp [occupied_iff]) (by simp [reading_iff]) (by simp [aimed_iff])
    (by simp [writing_iff]) (by simp [closing_iff]) (by simp [filed_iff]) (by simp [accepted_iff])
    (by simp [opened_iff]) (by simp [going_iff]) (by simp [ready_iff]; lia) (by simp [quiet_iff])

/-! ## completions -/

/-- A completion is delivered. -/
theorem deliverAccept (h : Balanced m v F) (hpos : 0 < v.accept)
    (hpatient : m.patient.toNat ≤ v.listening) :
    Balanced m { v with accept := v.accept - 1, dequeued := 1 } (held .accept ::ₘ F) := by
  -- the slot is pending or closing, so it is not idle
  have hstate := h.state
  have haccepting := h.accepting
  have hreaders := h.readers
  exact h.sides (by simp [occupied_iff]) (by simp [reading_iff]; lia) (by simp [aimed_iff]; lia)
    (by simp [writing_iff]) (by simp [closing_iff]) (by simp [filed_iff])
    (by simp [accepted_iff]; lia) (by simp [opened_iff]; lia) (by simp [going_iff]; lia)
    (by simp [ready_iff]; lia) (by simp [quiet_iff])

theorem deliverRecv (h : Balanced m v F) (hpos : 0 < v.recv) :
    Balanced m { v with recv := v.recv - 1 } (held .recv ::ₘ F) :=
  h.sides (by simp [occupied_iff]) (by simp [reading_iff]; lia) (by simp [aimed_iff]; lia)
    (by simp [writing_iff]) (by simp [closing_iff]) (by simp [filed_iff]) (by simp [accepted_iff])
    (by simp [opened_iff]) (by simp [going_iff]; lia) (by simp [ready_iff]) (by simp [quiet_iff])

theorem deliverSend (h : Balanced m v F) (hpos : 0 < v.send) :
    Balanced m { v with send := v.send - 1 } (held .send ::ₘ F) :=
  h.sides (by simp [occupied_iff]) (by simp [reading_iff]) (by simp [aimed_iff])
    (by simp [writing_iff]; lia) (by simp [closing_iff]) (by simp [filed_iff])
    (by simp [accepted_iff]; lia) (by simp [opened_iff]; lia) (by simp [going_iff])
    (by simp [ready_iff]) (by simp [quiet_iff])

theorem deliverDisconnect (h : Balanced m v F) (hpos : 0 < v.disconnect) :
    Balanced m { v with disconnect := v.disconnect - 1, closed := 1 }
      (held .disconnect ::ₘ F) := by
  -- the slot is closing, and this is its one disconnect
  have hle := tallies_le F
  have hstate := h.state
  have haccepting := h.accepting
  have hsenders := h.senders
  have hsending := h.sending
  have hclosers := h.closers
  have hclosedOne := h.closedOne
  exact h.sides (by simp [occupied_iff]) (by simp [reading_iff]) (by simp [aimed_iff]; lia)
    (by simp [writing_iff]) (by simp [closing_iff]; lia) (by simp [filed_iff])
    (by simp [accepted_iff]; lia) (by simp [opened_iff]; lia) (by simp [going_iff]; lia)
    (by simp [ready_iff]) (by simp [quiet_iff])

/-- A pointer is copied. -/
theorem retain (h : Balanced m v F) (hpos : 0 < v.refs) :
    Balanced m { v with refs := v.refs + 1 } (ref ::ₘ F) :=
  h.sides (by simp [occupied_iff]; lia) (by simp [reading_iff]) (by simp [aimed_iff])
    (by simp [writing_iff]) (by simp [closing_iff]) (by simp [filed_iff]) (by simp [accepted_iff])
    (by simp [opened_iff]) (by simp [going_iff]) (by simp [ready_iff]) (by simp [quiet_iff])

/-- The `OverlappedEx` loses its pointer, which is not counted any more. -/
theorem takeAccept (h : Balanced m v (held .accept ::ₘ F)) :
    Balanced m { v with read := 0 } (own .accept ::ₘ F) := by
  -- the pointer in the cell was this completion's, and nobody else needs it
  have hle := tallies_le F
  have hreadCell := h.readCell
  have hreadFree := h.readFree
  have hreaders := h.readers
  have hstate := h.state
  simp at hreadCell hreadFree hreaders
  exact h.sides (by simp [occupied_iff]; lia) (by simp [reading_iff]) (by simp [aimed_iff]; lia)
    (by simp [writing_iff]) (by simp [closing_iff]) (by simp [filed_iff]) (by simp [accepted_iff])
    (by simp [opened_iff]) (by simp [going_iff]; lia) (by simp [ready_iff]) (by simp [quiet_iff])

theorem takeRecv (h : Balanced m v (held .recv ::ₘ F)) :
    Balanced m { v with read := 0 } (own .recv ::ₘ F) := by
  -- the pointer in the cell was this completion's, and nobody else needs it
  have hle := tallies_le F
  have hreadCell := h.readCell
  have hreadFree := h.readFree
  have hstate := h.state
  have hreceiving := h.receiving
  simp at hreadCell hreadFree hreceiving
  exact h.sides (by simp [occupied_iff]; lia) (by simp [reading_iff]) (by simp [aimed_iff]; lia)
    (by simp [writing_iff]) (by simp [closing_iff]) (by simp [filed_iff]) (by simp [accepted_iff])
    (by simp [opened_iff]) (by simp [going_iff]; lia) (by simp [ready_iff]) (by simp [quiet_iff])

theorem takeSend (h : Balanced m v (held .send ::ₘ F)) :
    Balanced m { v with write := 0 } (own .send ::ₘ F) := by
  -- there is one send at most, so the pointer in the cell was its
  have hle := tallies_le F
  have hwriteCell := h.writeCell
  have hsenders := h.senders
  have hsending := h.sending
  simp at hwriteCell hsenders
  exact h.sides (by simp [occupied_iff]; lia) (by simp [reading_iff]) (by simp [aimed_iff])
    (by simp [writing_iff]; lia) (by simp [closing_iff]) (by simp [filed_iff])
    (by simp [accepted_iff]) (by simp [opened_iff]) (by simp [going_iff]) (by simp [ready_iff])
    (by simp [quiet_iff])

theorem takeDisconnect (h : Balanced m v (held .disconnect ::ₘ F)) :
    Balanced m { v with disc := 0 } (own .disconnect ::ₘ F) := by
  -- one pointer in the cell, for the one disconnect
  have hdiscCell := h.discCell
  have hdiscFree := h.discFree
  have hstate := h.state
  have hentryOne := h.entryOne
  simp at hdiscCell hdiscFree hentryOne
  exact h.sides (by simp [occupied_iff]; lia) (by simp [reading_iff]) (by simp [aimed_iff])
    (by simp [writing_iff]) (by simp [closing_iff]; lia) (by simp [filed_iff])
    (by simp [accepted_iff]) (by simp [opened_iff]) (by simp [going_iff]; lia) (by simp [ready_iff])
    (by simp [quiet_iff])

/-- A disconnect that failed keeps it. -/
theorem keepDisconnect (h : Balanced m v (ref ::ₘ held .disconnect ::ₘ F))
    (hprompt : m.prompt = false) :
    Balanced m v (own .disconnect ::ₘ F) :=
  h.sides (by simp [occupied_iff]) (by simp [reading_iff]) (by simp [aimed_iff])
    (by simp [writing_iff]) (by simp [closing_iff, hprompt]; lia) (by simp [filed_iff])
    (by simp [accepted_iff]) (by simp [opened_iff]) (by simp [going_iff]) (by simp [ready_iff])
    (by simp [quiet_iff])

/-! ## connecting -/

/-- `Connect` changes the state. -/
theorem connect (h : Balanced m v (own .accept ::ₘ F)) (hpending : v.pending = 1) :
    Balanced m { v with pending := 0, connected := 1 } (reader ::ₘ F) := by
  -- a pending slot is neither connected nor closing
  have hstate := h.state
  exact h.sides (by simp [occupied_iff]; lia) (by simp [reading_iff]; lia)
    (by simp [aimed_iff]; lia) (by simp [writing_iff]) (by simp [closing_iff]; lia)
    (by simp [filed_iff]; lia) (by simp [accepted_iff]; lia) (by simp [opened_iff]; lia)
    (by simp [going_iff]; lia) (by simp [ready_iff]; lia) (by simp [quiet_iff]; lia)

/-- `Disconnect` changes the state. -/
theorem close (h : Balanced m v (ref ::ₘ F)) (hstate : v.pending + v.connected = 1) (hk : k ∈ F)
    (hkind : under k = true) :
    Balanced m { v with pending := 0, connected := 0, closing := 1 } (closer ::ₘ F) := by
  -- the slot was in use, with an open socket, so its pointer is in the array
  obtain ⟨hstarts, hused⟩ := h.started_of_mem (Multiset.mem_cons_of_mem hk) hkind
  have hopen := h.open_of_mem hstate (Multiset.mem_cons_of_mem hk) hkind
  have hone := h.state
  have husedClosed := h.usedClosed
  -- and an accept was posted, and dequeued if it is not outstanding any more
  have hpendingKept := h.pendingKept
  have hopenRead := h.openRead
  have hreceiving := h.receiving
  have htaken := h.taken
  have hneeds := tally_le_add (p := needsRead) (q := fun j => j.starts || j.receives)
    (r := accepts) (fun j => by cases j with
      | held op => cases op <;> simp
      | _ => simp) F
  have hmore := tally_le_add (p := fun j => j.starts || j.receives) (q := starts)
    (r := receives) (fun j => by simp) F
  have hle := tallies_le F
  simp at hstarts hpendingKept hopenRead hreceiving htaken
  exact h.sides (by simp [occupied_iff]; lia) (by simp [reading_iff]; lia)
    (by simp [aimed_iff]; lia) (by simp [writing_iff]) (by simp [closing_iff]; lia)
    (by simp [filed_iff]; lia) (by simp [accepted_iff]; lia) (by simp [opened_iff]; lia)
    (by simp [going_iff]; lia) (by simp [ready_iff]; lia) (by simp [quiet_iff]; lia)

/-- Once the state is changed, whoever had business with the session has none. -/
theorem yield (h : Balanced m v (k ::ₘ F)) (hk : yields k = true) (hclosing : v.closing = 1) :
    Balanced m v (ref ::ₘ F) := by
  -- the slot is neither pending nor connected any more, so nobody has to go on with it
  have hstate := h.state
  cases k with
  | own op =>
      cases op with
      | accept =>
          exact h.sides (by simp [occupied_iff]) (by simp [reading_iff]; lia)
            (by simp [aimed_iff]; lia) (by simp [writing_iff]) (by simp [closing_iff])
            (by simp [filed_iff]) (by simp [accepted_iff]; lia) (by simp [opened_iff]; lia)
            (by simp [going_iff]; lia) (by simp [ready_iff]; lia) (by simp [quiet_iff])
      | recv =>
          exact h.sides (by simp [occupied_iff]) (by simp [reading_iff]; lia)
            (by simp [aimed_iff]; lia) (by simp [writing_iff]) (by simp [closing_iff])
            (by simp [filed_iff]) (by simp [accepted_iff]) (by simp [opened_iff])
            (by simp [going_iff]; lia) (by simp [ready_iff]) (by simp [quiet_iff])
      | send =>
          exact h.sides (by simp [occupied_iff]) (by simp [reading_iff]) (by simp [aimed_iff])
            (by simp [writing_iff]; lia) (by simp [closing_iff]) (by simp [filed_iff])
            (by simp [accepted_iff]; lia) (by simp [opened_iff]; lia) (by simp [going_iff])
            (by simp [ready_iff]) (by simp [quiet_iff])
      | disconnect => simp at hk
  | reader =>
      exact h.sides (by simp [occupied_iff]) (by simp [reading_iff]; lia) (by simp [aimed_iff]; lia)
        (by simp [writing_iff]) (by simp [closing_iff]) (by simp [filed_iff])
        (by simp [accepted_iff]) (by simp [opened_iff]) (by simp [going_iff]; lia)
        (by simp [ready_iff]) (by simp [quiet_iff])
  | _ => simp at hk

theorem setDisconnect (h : Balanced m v (closer ::ₘ F)) :
    Balanced m { v with ioDisconnect := 1 } (typedDisconnect ::ₘ F) := by
  -- the type is needed by those who close, and a slot closes once
  have hle := tallies_le F
  have hstate := h.state
  exact h.sides (by simp [occupied_iff]) (by simp [reading_iff]) (by simp [aimed_iff])
    (by simp [writing_iff]) (by simp [closing_iff]; lia) (by simp [filed_iff])
    (by simp [accepted_iff]) (by simp [opened_iff]) (by simp [going_iff]) (by simp [ready_iff])
    (by simp [quiet_iff])

theorem armDisconnect (h : Balanced m v (ref ::ₘ typedDisconnect ::ₘ F)) :
    Balanced m { v with disc := 1 } (armedDisconnect ::ₘ F) := by
  -- the stage needs the cell to be null
  have hdiscFree := h.discFree
  simp at hdiscFree
  exact h.sides (by simp [occupied_iff]; lia) (by simp [reading_iff]) (by simp [aimed_iff])
    (by simp [writing_iff]) (by simp [closing_iff]; lia) (by simp [filed_iff])
    (by simp [accepted_iff]) (by simp [opened_iff]) (by simp [going_iff]; lia) (by simp [ready_iff])
    (by simp [quiet_iff])

/-- `DisconnectEx` is called, and posts nothing. -/
theorem callDisconnect (h : Balanced m v (armedDisconnect ::ₘ F)) (hprompt : m.prompt = false) :
    Balanced m { v with disconnects := v.disconnects + 1 } (ref ::ₘ F) := by
  -- the pointer stays in the cell, with no disconnect to use it
  have hdiscCell := h.discCell
  have hstate := h.state
  have hentryOne := h.entryOne
  simp at hdiscCell hentryOne
  exact h.sides (by simp [occupied_iff]) (by simp [reading_iff]) (by simp [aimed_iff])
    (by simp [writing_iff]) (by simp [closing_iff, hprompt]; lia) (by simp [filed_iff])
    (by simp [accepted_iff]) (by simp [opened_iff]) (by simp [going_iff, hprompt]; lia)
    (by simp [ready_iff]) (by simp [quiet_iff])

/-- It posts a disconnect. -/
theorem postDisconnect (h : Balanced m v (armedDisconnect ::ₘ F)) :
    Balanced m { v with disconnects := v.disconnects + 1, disconnect := v.disconnect + 1 }
      (ref ::ₘ F) := by
  -- the pointer in the cell is from now on the disconnect's
  have hdiscCell := h.discCell
  have hstate := h.state
  have hentryOne := h.entryOne
  simp at hdiscCell hentryOne
  exact h.sides (by simp [occupied_iff]) (by simp [reading_iff]) (by simp [aimed_iff])
    (by simp [writing_iff]) (by simp [closing_iff]; lia) (by simp [filed_iff])
    (by simp [accepted_iff]) (by simp [opened_iff]) (by simp [going_iff]; lia) (by simp [ready_iff])
    (by simp [quiet_iff])

/-- `Clear` counts the pointer in the array no more. -/
theorem discount (h : Balanced m v (own .disconnect ::ₘ F)) :
    Balanced m { v with refs := v.refs - 1 } (clearing ::ₘ F) := by
  -- it has one of its own, and finds the other in the array
  have hclosersEntry := h.closersEntry
  simp at hclosersEntry
  exact h.sides (by simp [occupied_iff]; lia) (by simp [reading_iff]) (by simp [aimed_iff])
    (by simp [writing_iff]) (by simp [closing_iff]; lia) (by simp [filed_iff])
    (by simp [accepted_iff]) (by simp [opened_iff]) (by simp [going_iff]) (by simp [ready_iff])
    (by simp [quiet_iff])

/-- It takes it out. -/
theorem clear (h : Balanced m v (clearing ::ₘ F)) :
    Balanced m { v with entry := 0 } (ref ::ₘ F) := by
  -- who closes does so once, and finds the pointer in the array until then
  have hclosers := h.closers
  have hclosersEntry := h.closersEntry
  have hentryOne := h.entryOne
  have hclosedStage := h.closedStage
  simp at hclosers hclosersEntry hentryOne hclosedStage
  exact h.sides (by simp [occupied_iff]; lia) (by simp [reading_iff]) (by simp [aimed_iff])
    (by simp [writing_iff]) (by simp [closing_iff]; lia) (by simp [filed_iff]; lia)
    (by simp [accepted_iff]; lia) (by simp [opened_iff]; lia) (by simp [going_iff]; lia)
    (by simp [ready_iff]) (by simp [quiet_iff])

/-! ## receiving -/

/-- The completion of a receive gives the right to the next one. -/
theorem read (h : Balanced m v (own .recv ::ₘ F)) : Balanced m v (reader ::ₘ F) :=
  h.sides (by simp [occupied_iff]) (by simp [reading_iff]; lia) (by simp [aimed_iff])
    (by simp [writing_iff]) (by simp [closing_iff]) (by simp [filed_iff]) (by simp [accepted_iff])
    (by simp [opened_iff]) (by simp [going_iff]) (by simp [ready_iff]) (by simp [quiet_iff])

theorem setRecv (h : Balanced m v (reader ::ₘ F)) :
    Balanced m { v with ioRecv := 1, ioAccept := 0 } (typedRecv ::ₘ F) := by
  -- nobody else has a type in `readOv_`: that would be a second reader
  have hle := tallies_le F
  exact h.sides (by simp [occupied_iff]) (by simp [reading_iff]; lia) (by simp [aimed_iff])
    (by simp [writing_iff]) (by simp [closing_iff]) (by simp [filed_iff]) (by simp [accepted_iff])
    (by simp [opened_iff]) (by simp [going_iff]) (by simp [ready_iff]) (by simp [quiet_iff])

/-- `GetSession` has found the session. -/
theorem armRecv (h : Balanced m v (ref ::ₘ typedRecv ::ₘ F)) :
    Balanced m { v with read := 1 } (armedRecv ::ₘ F) := by
  -- the stage needs the cell to be null
  have hreadFree := h.readFree
  simp at hreadFree
  exact h.sides (by simp [occupied_iff]; lia) (by simp [reading_iff]) (by simp [aimed_iff]; lia)
    (by simp [writing_iff]) (by simp [closing_iff]) (by simp [filed_iff]) (by simp [accepted_iff])
    (by simp [opened_iff]) (by simp [going_iff]; lia) (by simp [ready_iff]) (by simp [quiet_iff])

/-- It has not. -/
theorem armNull (h : Balanced m v (typedRecv ::ₘ F)) (hentry : v.entry = 0) :
    Balanced m v (deafRecv ::ₘ F) := by
  -- a closing slot that is not in the array has its socket closed
  have hle := tallies_le F
  have haccepted := h.accepted
  have husedClosed := h.usedClosed
  have hreceiving := h.receiving
  simp at haccepted hreceiving
  exact h.sides (by simp [occupied_iff]) (by simp [reading_iff]) (by simp [aimed_iff]; lia)
    (by simp [writing_iff]) (by simp [closing_iff]) (by simp [filed_iff]) (by simp [accepted_iff])
    (by simp [opened_iff]) (by simp [going_iff]) (by simp [ready_iff]) (by simp [quiet_iff])

theorem armDeaf (h : Balanced m v (deafRecv ::ₘ F)) :
    Balanced m { v with read := 0 } (armedRecv ::ₘ F) := by
  -- the cell was null and stays so
  have hle := tallies_le F
  have hreadFree := h.readFree
  have hreaders := h.readers
  simp at hreadFree hreaders
  exact h.sides (by simp [occupied_iff]; lia) (by simp [reading_iff]) (by simp [aimed_iff]; lia)
    (by simp [writing_iff]) (by simp [closing_iff]) (by simp [filed_iff]) (by simp [accepted_iff])
    (by simp [opened_iff]) (by simp [going_iff]; lia) (by simp [ready_iff]) (by simp [quiet_iff])

/-- `WSARecv` posts a receive. -/
theorem postRecv (h : Balanced m v (armedRecv ::ₘ F)) (hopen : v.closed = 0) :
    Balanced m { v with recv := v.recv + 1 } (ref ::ₘ F) := by
  -- the socket is open, so the pointer is in the cell; it is this reader's
  have hle := tallies_le F
  have hreaders := h.readers
  simp at hreaders
  exact h.sides (by simp [occupied_iff]) (by simp [reading_iff]; lia) (by simp [aimed_iff]; lia)
    (by simp [writing_iff]) (by simp [closing_iff]) (by simp [filed_iff]) (by simp [accepted_iff])
    (by simp [opened_iff]) (by simp [going_iff]; lia) (by simp [ready_iff]) (by simp [quiet_iff])

/-- It does not, and there is no pointer to take back. -/
theorem disarmNull (h : Balanced m v (armedRecv ::ₘ F)) (hread : v.read = 0) :
    Balanced m v (reader ::ₘ F) := by
  -- no receive is outstanding, as the reader was the only one
  have hle := tallies_le F
  have hreaders := h.readers
  have hstate := h.state
  have hreceiving := h.receiving
  have hacceptedOne := h.acceptedOne
  simp at hreaders hreceiving
  exact h.sides (by simp [occupied_iff]) (by simp [reading_iff]; lia)
    (by simp [aimed_iff]; lia) (by simp [writing_iff]) (by simp [closing_iff]) (by simp [filed_iff])
    (by simp [accepted_iff]) (by simp [opened_iff]) (by simp [going_iff]) (by simp [ready_iff])
    (by simp [quiet_iff])

/-- There is one, which is to be taken back like that of a completion. -/
theorem retract (h : Balanced m v (armedRecv ::ₘ F)) (hread : v.read = 1) :
    Balanced m v (ref ::ₘ held .recv ::ₘ F) := by
  -- no receive is outstanding, as the reader was the only one
  have hle := tallies_le F
  have hreaders := h.readers
  simp at hreaders
  exact h.sides (by simp [occupied_iff]) (by simp [reading_iff])
    (by simp [aimed_iff]; lia) (by simp [writing_iff]) (by simp [closing_iff]) (by simp [filed_iff])
    (by simp [accepted_iff]) (by simp [opened_iff]) (by simp [going_iff]) (by simp [ready_iff])
    (by simp [quiet_iff])

/-! ## sending -/

/-- The positions in `readOv_` change. -/
theorem soilRead (h : Balanced m v F) (huse : InUse m v F) {d : Nat} (hd : d ≤ 1) :
    Balanced m { v with dirtyRead := d } F := by
  have hle := tallies_le F
  have hstate := h.state
  rw [InUse] at huse
  exact h.sides (by simp [occupied_iff]) (by simp [reading_iff]) (by simp [aimed_iff])
    (by simp [writing_iff]) (by simp [closing_iff]) (by simp [filed_iff]) (by simp [accepted_iff])
    (by simp [opened_iff]) (by simp [going_iff]) (by simp [ready_iff]) (by simp [quiet_iff]; lia)

/-- Those in `writeOv_` do. -/
theorem soilWrite (h : Balanced m v F) (huse : InUse m v F) {d : Nat} (hd : d ≤ 1) :
    Balanced m { v with dirtyWrite := d } F := by
  have hle := tallies_le F
  have hstate := h.state
  rw [InUse] at huse
  exact h.sides (by simp [occupied_iff]) (by simp [reading_iff]) (by simp [aimed_iff])
    (by simp [writing_iff]) (by simp [closing_iff]) (by simp [filed_iff]) (by simp [accepted_iff])
    (by simp [opened_iff]) (by simp [going_iff]) (by simp [ready_iff]) (by simp [quiet_iff]; lia)

/-- A first `WSASend` posts nothing. -/
theorem hold (h : Balanced m v F) (hidle : v.sending = 0) (huse : InUse m v F) :
    Balanced m { v with sending := 1, ioSend := 1 } F := by
  have hle := tallies_le F
  have hstate := h.state
  rw [InUse] at huse
  exact h.sides (by simp [occupied_iff]) (by simp [reading_iff]) (by simp [aimed_iff])
    (by simp [writing_iff]; lia) (by simp [closing_iff]) (by simp [filed_iff])
    (by simp [accepted_iff]) (by simp [opened_iff]) (by simp [going_iff]) (by simp [ready_iff])
    (by simp [quiet_iff]; lia)

/-- It posts a send. -/
theorem postSend (h : Balanced m v F) (hidle : v.sending = 0) (hopen : v.closed = 0)
    (hused : v.accepted = 1) (huse : InUse m v F) :
    Balanced m { v with
      sending := 1, ioSend := 1, write := 1, refs := v.refs + 1, send := v.send + 1 } F := by
  -- not sending: no send is outstanding, and the cell is null
  rw [InUse] at huse
  have hle := tallies_le F
  have hsenders := h.senders
  have hwriteCell := h.writeCell
  have husedClosed := h.usedClosed
  have hstartClosed := h.startClosed
  have hstate := h.state
  exact h.sides (by simp [occupied_iff]; lia) (by simp [reading_iff]) (by simp [aimed_iff])
    (by simp [writing_iff]; lia) (by simp [closing_iff]) (by simp [filed_iff])
    (by simp [accepted_iff]; lia) (by simp [opened_iff]; lia) (by simp [going_iff])
    (by simp [ready_iff]) (by simp [quiet_iff]; lia)

theorem setSend (h : Balanced m v F) : Balanced m { v with ioSend := 1 } F :=
  h.sides (by simp [occupied_iff]) (by simp [reading_iff]) (by simp [aimed_iff])
    (by simp [writing_iff]; lia) (by simp [closing_iff]) (by simp [filed_iff])
    (by simp [accepted_iff]) (by simp [opened_iff]) (by simp [going_iff]) (by simp [ready_iff])
    (by simp [quiet_iff])

/-- All is sent. -/
theorem sent (h : Balanced m v (own .send ::ₘ F)) :
    Balanced m { v with sending := 0 } (ref ::ₘ F) :=
  h.sides (by simp [occupied_iff]) (by simp [reading_iff]) (by simp [aimed_iff])
    (by simp [writing_iff]; lia) (by simp [closing_iff]) (by simp [filed_iff])
    (by simp [accepted_iff]; lia) (by simp [opened_iff]; lia) (by simp [going_iff])
    (by simp [ready_iff]) (by simp [quiet_iff]; lia)

/-- The next `WSASend` posts a send. -/
theorem resend (h : Balanced m v (own .send ::ₘ F)) (hopen : v.closed = 0) :
    Balanced m { v with ioSend := 1, write := 1, refs := v.refs + 1, send := v.send + 1 }
      (ref ::ₘ F) := by
  -- the last send is over, and its pointer has left the cell
  have hle := tallies_le F
  have hwriteCell := h.writeCell
  have hsenders := h.senders
  have hsending := h.sending
  simp at hwriteCell hsenders
  exact h.sides (by simp [occupied_iff]; lia) (by simp [reading_iff]) (by simp [aimed_iff])
    (by simp [writing_iff]; lia) (by simp [closing_iff]) (by simp [filed_iff])
    (by simp [accepted_iff]; lia) (by simp [opened_iff]; lia) (by simp [going_iff])
    (by simp [ready_iff]) (by simp [quiet_iff])

/-! ## pointers -/

/-- A pointer is dropped, and there are others. -/
theorem drop (h : Balanced m v (ref ::ₘ F)) (hmany : 1 < v.refs) :
    Balanced m { v with refs := v.refs - 1 } F :=
  h.sides (by simp [occupied_iff]; lia) (by simp [reading_iff]) (by simp [aimed_iff])
    (by simp [writing_iff]) (by simp [closing_iff]) (by simp [filed_iff]) (by simp [accepted_iff])
    (by simp [opened_iff]) (by simp [going_iff]) (by simp [ready_iff]) (by simp [quiet_iff])

/-- The last pointer is dropped: the slot was closing, and nobody else is about
to do anything with it. -/
theorem last (h : Balanced m v (ref ::ₘ F)) (hone : v.refs = 1) :
    v.closing = 1 ∧ ∀ j ∈ F, j = .seen := by
  have hle := tallies_le F
  have hs := h.state
  have hr := h.refs
  have hi := h.idle
  have he := h.entry
  have hst := h.starting
  have hread := h.readCell
  have hwr := h.writeCell
  have hclosersEntry := h.closersEntry
  have hacquired := h.acquired
  have hgone := h.released
  have hb := tally_le_add (p := births) (q := counts) (r := pops) (fun j hj => by
    cases j <;> simp at hj ⊢) F
  simp at hr he hst hread hwr hclosersEntry hacquired hgone
  refine ⟨by omega, ?_⟩
  exact Server.eq_seen (by omega) (by omega) (by omega) (by omega) (by omega) (by omega)

/-! ## the last release -/

theorem release (h : Balanced m v (ref ::ₘ F)) (hone : v.refs = 1) :
    Balanced m { v with refs := 0 } (released ::ₘ F) := by
  obtain ⟨hclosing, hF⟩ := h.last hone
  have hzero := tallies_of_seen hF
  have hcounted := h.refs
  have hstate := h.state
  simp at hcounted
  exact h.sides (by simp [occupied_iff]; lia) (by simp [reading_iff]) (by simp [aimed_iff])
    (by simp [writing_iff]) (by simp [closing_iff]) (by simp [filed_iff]) (by simp [accepted_iff])
    (by simp [opened_iff]) (by simp [going_iff]) (by simp [ready_iff]) (by simp [quiet_iff])

/-- The deleter resets `readOv_`. -/
theorem resetRead (h : Balanced m v (released ::ₘ F)) :
    Balanced m { v with dirtyRead := 0, ioAccept := 0, ioRecv := 0 } (cleanedRead ::ₘ F) := by
  obtain ⟨hrefs, hclosing, hF⟩ := h.released_of_ends rfl
  have hzero := tallies_of_seen hF
  have hcounted := h.refs
  have hreadCell := h.readCell
  have hwhole := h.wholeOne
  exact h.sides (by simp [occupied_iff]) (by simp [reading_iff]; lia) (by simp [aimed_iff])
    (by simp [writing_iff]) (by simp [closing_iff]) (by simp [filed_iff]) (by simp [accepted_iff])
    (by simp [opened_iff]) (by simp [going_iff]) (by simp [ready_iff]) (by simp [quiet_iff]; lia)

/-- It resets `writeOv_`. -/
theorem resetWrite (h : Balanced m v (cleanedRead ::ₘ F)) :
    Balanced m { v with dirtyWrite := 0, ioSend := 0 } (cleanedWrite ::ₘ F) := by
  obtain ⟨hrefs, hclosing, hF⟩ := h.released_of_ends rfl
  have hzero := tallies_of_seen hF
  have hcounted := h.refs
  have hwriteCell := h.writeCell
  have hwhole := h.wholeOne
  exact h.sides (by simp [occupied_iff]) (by simp [reading_iff]) (by simp [aimed_iff])
    (by simp [writing_iff]; lia) (by simp [closing_iff]) (by simp [filed_iff])
    (by simp [accepted_iff]) (by simp [opened_iff]) (by simp [going_iff]) (by simp [ready_iff])
    (by simp [quiet_iff]; lia)

/-- It clears `isSending_`. -/
theorem quieten (h : Balanced m v (cleanedWrite ::ₘ F)) :
    Balanced m { v with sending := 0 } (quieted ::ₘ F) := by
  obtain ⟨hrefs, hclosing, hF⟩ := h.released_of_ends rfl
  have hzero := tallies_of_seen hF
  have hcounted := h.refs
  have hwriteCell := h.writeCell
  have hwhole := h.wholeOne
  exact h.sides (by simp [occupied_iff]) (by simp [reading_iff]) (by simp [aimed_iff])
    (by simp [writing_iff]; lia) (by simp [closing_iff]) (by simp [filed_iff])
    (by simp [accepted_iff]) (by simp [opened_iff]) (by simp [going_iff]) (by simp [ready_iff])
    (by simp [quiet_iff]; lia)

/-- And `handle_`. -/
theorem untitle (h : Balanced m v (quieted ::ₘ F)) :
    Balanced m { v with named := 0, unnamed := 1 } (untitled ::ₘ F) := by
  obtain ⟨hrefs, hclosing, hF⟩ := h.released_of_ends rfl
  have hzero := tallies_of_seen hF
  have hcounted := h.refs
  have hstate := h.state
  exact h.sides (by simp [occupied_iff]) (by simp [reading_iff]) (by simp [aimed_iff])
    (by simp [writing_iff]) (by simp [closing_iff]) (by simp [filed_iff]; lia)
    (by simp [accepted_iff]) (by simp [opened_iff]) (by simp [going_iff]) (by simp [ready_iff])
    (by simp [quiet_iff])

/-- What is called under the handle, and is noted, before it is pushed. -/
theorem noted (h : Balanced m v (untitled ::ₘ F)) :
    v.disconnects = 1 ∧ v.listening = 1 ∧ v.dequeued = 1 := by
  obtain ⟨hrefs, hclosing, hF⟩ := h.released_of_ends rfl
  have hzero := tallies_of_seen hF
  have hcounted := h.refs
  have hstate := h.state
  have hreadCell := h.readCell
  have hcallers := h.callers
  have hlistening := h.listening
  have hdequeued := h.dequeued
  have hused := h.used
  simp at hcounted hreadCell hcallers hlistening
  exact ⟨by omega, by omega, by omega⟩

/-- `Push`. -/
theorem push (h : Balanced m v (untitled ::ₘ F)) :
    Balanced m { v with
      idle := 1, closing := 0, disconnects := 0, named := 0, listening := 0, dequeued := 0 } F := by
  obtain ⟨hrefs, hclosing, hF⟩ := h.released_of_ends rfl
  have hzero := tallies_of_seen hF
  have hcounted := h.refs
  have hstate := h.state
  have hreadCell := h.readCell
  have hwriteCell := h.writeCell
  have hdiscCell := h.discCell
  have hpast := h.acceptedPast
  have husedClosed := h.usedClosed
  have hclosedOne := h.closedOne
  have hhandle := h.handle
  have hgone := h.handleGone
  have hquieted := h.quieted
  have hcleanedRead := h.cleanedRead
  have hcleanedWrite := h.cleanedWrite
  have hstray := h.stray
  simp at hcounted hpast hgone hquieted hcleanedRead hcleanedWrite
  refine of_seen hF ⟨rfl, ?_, ?_, rfl⟩ ⟨hrefs, ?_, ?_, ?_, ?_, hstray⟩ ⟨?_, ?_, ?_, ?_, rfl⟩ ?_
    hclosedOne ?_ hpast ⟨rfl, rfl⟩ ?_ ⟨?_, ?_⟩
  all_goals simp only
  all_goals omega

/-- The slot was used before. -/
theorem witness (h : Balanced m v F) (hused : v.accepted = 1) : Balanced m v (seen ::ₘ F) :=
  h.sides (by simp [occupied_iff]) (by simp [reading_iff]) (by simp [aimed_iff])
    (by simp [writing_iff]) (by simp [closing_iff]) (by simp [filed_iff])
    (by simp [accepted_iff]; lia) (by simp [opened_iff]) (by simp [going_iff]) (by simp [ready_iff])
    (by simp [quiet_iff])

end Balanced

end Server

end ServerStudy
