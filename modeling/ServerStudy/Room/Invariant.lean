import ServerStudy.Room

/-!
# ServerStudy.Room.Invariant

How the buffers of the sessions and the progress of the threads go together.

Every session has a queue of packets: those that `SendPacket` has copied into
its buffer.  What its client was sent, followed by what waits in the buffer, is
that queue.  The thread that handles what a session received has a `reader`
token, which holds the receiving buffer itself and how far the thread has come;
one that is about to call `OnWrite` has a `writer` token.

* `Reads` — of each other session's queue, the packets from this session are
  those its client sent, up to the progress of the reader;
* `Writes` — the queue, the buffer and the operation in flight;
* `Listens`, `Busy` — what is connected is received on, and what waits is sent;
* `Triple` — a program in a thread, from the tokens it starts with to those it
  ends with.
-/

namespace ServerStudy

namespace Room

open SessionManager

variable {N : Nat}

/-! ## tokens -/

/-- How far the packets of a session have been handled, and, of the packet that is being
broadcast, which sessions it is still to be sent to. -/
structure Progress (N : Nat) where
  handled : List (List UInt8) := []
  current : Option (List UInt8 × List (Fin N)) := none

/-- The packets whose handling has begun. -/
def Progress.begun (p : Progress N) : List (List UInt8) :=
  match p.current with
  | none => p.handled
  | some (packet, _) => p.handled ++ [packet]

/-- Those that a session is to have been sent. -/
def Progress.given (p : Progress N) (v : Fin N) : List (List UInt8) :=
  match p.current with
  | none => p.handled
  | some (packet, todo) => if v ∈ todo then p.handled else p.handled ++ [packet]

/-- What a thread owns: the received bytes of a session, or a completion of its send. -/
inductive Token (N : Nat) where
  | reader (u : Fin N) (ov : OverlappedEx) (heard : List UInt8) (progress : Progress N)
  | writer (v : Fin N) (n : Nat)

/-- It is a reader of this session. -/
def Token.reads (t : Token N) (u : Fin N) : Bool :=
  match t with
  | .reader u' _ _ _ => decide (u' = u)
  | .writer _ _ => false

/-- It is a writer of this session. -/
def Token.writes (t : Token N) (v : Fin N) : Bool :=
  match t with
  | .reader _ _ _ _ => false
  | .writer v' _ => decide (v' = v)

/-! ## the manager -/

/-- Nothing is released, nothing is connected, and a session is disconnected at most. -/
structure Same (m₀ m : SessionManager N) : Prop where
  repr : ∃ b, SparseSet.Repr m.sessionPool_.set b
  handleAt : m.handleAt = m₀.handleAt
  ptrs : m.sessionPtrs_ = m₀.sessionPtrs_
  handle : ∀ w, (m.session w).handle_ = (m₀.session w).handle_
  managed : ∀ w, (m.session w).sessionManager_ = (m₀.session w).sessionManager_
  state : ∀ w, m.state w = m₀.state w ∨ m.state w = SessionState.kDisconnecting.toNat

/-! ## the buffers -/

/-- What `SendPacket` has copied into the buffer of a session, the progress of its reader, and
what waits to be sent. -/
structure Ghost (N : Nat) where
  queue : Fin N → List (List UInt8)
  progress : Fin N → Progress N
  waiting : Fin N → List UInt8

variable (m₀ : SessionManager N)

/-- Of the queue of `v`, what comes from `u` is what was given to it; all of it, as long as `v` is
connected and never refused any. -/
structure Fed (s : Room N) (queue : List (List UInt8)) (u v : Fin N)
    (given : List (List UInt8)) : Prop where
  sublist : (queue.filter (isFrom (m₀.handleAt u))).Sublist (given.map (relayed (m₀.handleAt u)))
  all : s.manager.state v = SessionState.kConnected.toNat → s.refused v = false →
    queue.filter (isFrom (m₀.handleAt u)) = given.map (relayed (m₀.handleAt u))

/-- The receive that is outstanding is for all the room there is, and no packet is complete. -/
structure Awaits (ov : OverlappedEx) (heard : List UInt8) (wsaBuf : WsaBuf) (p : Progress N) :
    Prop where
  rest : ∃ rest, ov.Holds rest ∧ rest.length ≤ OverlappedEx.getSize ∧
    packets.cut heard = ⟨p.handled, rest, false⟩ ∧
    wsaBuf = ⟨ov.writePos_, OverlappedEx.getSize - rest.length⟩
  low : ov.readPos_ < OverlappedEx.getSize
  ioType : ov.ioType_ = .kRecv
  current : p.current = none

/-- A session's receiving side. -/
structure Reads (p : Progress N) (s : Room N) (F : Multiset (Token N)) (u : Fin N) : Prop where
  one : F.countP (·.reads u) + (s.receiving u).isSome.toNat ≤ 1
  begun : p.begun <+: (packets.cut (s.heard u)).frames
  connected : (s.receiving u).isSome → m₀.state u = SessionState.kConnected.toNat
  awaits : ∀ wsaBuf, s.receiving u = some wsaBuf →
    Awaits (s.manager.session u).readOv_ (s.heard u) wsaBuf p
  reader : ∀ ov heard p', Token.reader u ov heard p' ∈ F →
    (s.manager.session u).readOv_ = ov ∧ s.heard u = heard ∧ p = p'

/-- A session's sending side. -/
structure Writes (queue : List (List UInt8)) (waiting : List UInt8) (s : Room N)
    (F : Multiset (Token N)) (v : Fin N) : Prop where
  one : F.countP (·.writes v) + (s.sending v).isSome.toNat ≤
    (s.manager.session v).isSending_.toNat
  queued : (s.manager.session v).Queued waiting
  idle : (s.manager.session v).isSending_ = false → waiting = []
  ioType : 1 ≤ F.countP (·.writes v) + (s.sending v).isSome.toNat →
    (s.manager.session v).writeOv_.ioType_ = .kSend
  sending : ∀ wsaBuf, s.sending v = some wsaBuf →
    wsaBuf.buf = (s.manager.session v).writeOv_.readPos_ ∧ wsaBuf.len ≤ waiting.length
  writer : ∀ n, Token.writer v n ∈ F → n ≤ waiting.length ∧
    s.sent v ++ waiting.drop n = queue.flatten
  sent : F.countP (·.writes v) = 0 → s.sent v ++ waiting = queue.flatten
  packet : ∀ packet ∈ queue, 4 ≤ packet.length ∧ packets.size packet = packet.length ∧
    ∃ u, u ≠ v ∧ isFrom (m₀.handleAt u) packet
  connected : (s.sending v).isSome → m₀.state v = SessionState.kConnected.toNat

/-- A connected session is received on, or a reader is about to. -/
def Listens (s : Room N) (F : Multiset (Token N)) (u : Fin N) : Prop :=
  s.manager.state u = SessionState.kConnected.toNat →
    1 ≤ F.countP (·.reads u) + (s.receiving u).isSome.toNat

/-- Where a session is connected and never refused a packet, what it sends is on its way. -/
def Busy (s : Room N) (F : Multiset (Token N)) (v : Fin N) : Prop :=
  s.manager.state v = SessionState.kConnected.toNat → s.refused v = false →
    (s.manager.session v).isSending_ = true →
    1 ≤ F.countP (·.writes v) + (s.sending v).isSome.toNat

/-- The room and all tokens there are. -/
structure Kept (g : Ghost N) (s : Room N) (F : Multiset (Token N)) : Prop where
  same : Same m₀ s.manager
  reads : ∀ u, Reads m₀ (g.progress u) s F u
  listens : ∀ u, Listens s F u
  busy : ∀ v, Busy s F v
  fed : ∀ u v, u ≠ v → Fed m₀ s (g.queue v) u v ((g.progress u).given v)
  writes : ∀ v, Writes m₀ (g.queue v) (g.waiting v) s F v

/-- Threads own nothing between two completions. -/
def discipline : Discipline (client N) (Token N) where
  guard := Civil
  bad _ := False
  inv s F := ∃ g, Kept m₀ g s F
  idle _ r := r = 0
  held _ _ _ := True
  change _ _ _ := True

/-! ## programs -/

/-- The program keeps the invariant at each action; a thread that starts it with the tokens `r`
ends with an `a` and tokens such that `post a`. -/
def Triple {α : Type} (r : Multiset (Token N)) (p : Prog (Room N × Unit) (Kernel N) Fault α)
    (post : α → Multiset (Token N) → Prop) : Prop :=
  Safe (discipline m₀) answers (fun _ => True) p (fun a _ r' => post a r') () r

variable {m₀} {r : Multiset (Token N)} {α β : Type}
  {p : Prog (Room N × Unit) (Kernel N) Fault α} {post : α → Multiset (Token N) → Prop}

theorem Triple.done {a : α} (h : post a r) : Triple m₀ r (.done a) post := ⟨trivial, h⟩

theorem Triple.mono {post' : α → Multiset (Token N) → Prop} (hp : Triple m₀ r p post)
    (h : ∀ a r', post a r' → post' a r') : Triple m₀ r p post' :=
  Safe.mono (fun _ h => h) (fun a _ r' => h a r') hp

theorem Triple.bind {f : α → Prog (Room N × Unit) (Kernel N) Fault β}
    {post' : β → Multiset (Token N) → Prop} (hp : Triple m₀ r p post)
    (hf : ∀ a r', post a r' → Triple m₀ r' (f a) post') : Triple m₀ r (p.bind f) post' :=
  Safe.bind (hp.mono hf)

/-- The first part returns `a` and leaves the tokens `r'`. -/
theorem Triple.then {a : α} {r' : Multiset (Token N)}
    {f : α → Prog (Room N × Unit) (Kernel N) Fault β} {post' : β → Multiset (Token N) → Prop}
    (hp : Triple m₀ r p fun b t => b = a ∧ t = r') (hf : Triple m₀ r' (f a) post') :
    Triple m₀ r (p.bind f) post' :=
  hp.bind fun _ _ ⟨ha, hr⟩ => by
    subst ha hr
    exact hf

theorem Triple.ite {c : Prop} [Decidable c] {q : Prog (Room N × Unit) (Kernel N) Fault α}
    (hp : c → Triple m₀ r p post) (hq : ¬ c → Triple m₀ r q post) :
    Triple m₀ r (if c then p else q) post := by
  split_ifs with h
  · exact hp h
  · exact hq h

/-- One action. -/
theorem Triple.action {f : Room N × Unit → Except Fault (α × (Room N × Unit))}
    (h : ∀ g s F, Civil s → Kept m₀ g s (r + F) → ∃ a s' r', f (s, ()) = .ok (a, s', ()) ∧
      (∃ g', Kept m₀ g' s' (r' + F)) ∧ post a r') : Triple m₀ r (Prog.update f) post :=
  Safe.update trivial fun s F hg ⟨g, hi⟩ => by
    obtain ⟨a, s', r', hf, hi', ha⟩ := h g s F hg hi
    exact ⟨a, s', (), hf, fun _ => ⟨trivial, r', hi', trivial, ha⟩⟩

/-- A section. -/
theorem Triple.atomically
    (h : ∀ g s F, Civil s → Kept m₀ g s (r + F) → Prog.wp answers (fun _ => False) p
      (fun a x => ∃ r', (∃ g', Kept m₀ g' x.1 (r' + F)) ∧ post a r') (s, ())) :
    Triple m₀ r (Prog.atomically p) post :=
  Safe.atomically trivial fun s F hg ⟨g, hi⟩ => Prog.wp_mono (fun _ _ hx _ => by
    obtain ⟨r', hi', ha⟩ := hx
    exact ⟨trivial, r', hi', trivial, ha⟩) (h g s F hg hi)

/-- A method that is one section. -/
theorem Triple.locked {q : Prog (Room N × Unit) (Kernel N) Fault α} (hpq : p = Prog.atomically q)
    (h : ∀ g s F, Civil s → Kept m₀ g s (r + F) → Prog.wp answers (fun _ => False) p
      (fun a x => ∃ r', (∃ g', Kept m₀ g' x.1 (r' + F)) ∧ post a r') (s, ())) :
    Triple m₀ r p post := by
  subst hpq
  exact Triple.atomically h

end Room

end ServerStudy
