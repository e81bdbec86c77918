import Mathlib.Logic.Function.Basic
import Mathlib.Tactic.Common

/-!
# ServerStudy.Prog

Imperative programs as trees of atomic actions, and their rules of pre- and
postconditions.

A `Prog σ Q E α` runs on a state of type `σ` and returns an `α`.  It is made of

* `act` — one atomic read or update of the state, which may fault with an `E`;
* `ask` — a question `Q β` to the environment, answered by a `β`;
* `atomic` — a whole program run as one action (a critical section).

The same program has two meanings: run alone, from start to end (`Exec`, with
the weakest precondition `wp`), or interleaved with others action by action
(`Step`; see `ServerStudy.Threads`).  Both are relative to an `Answers σ Q`,
which says what the environment may answer in each state.
-/

namespace ServerStudy

/-- Programs over states `σ`, with queries `Q` and faults `E`. -/
inductive Prog (σ : Type) (Q : Type → Type) (E : Type) : Type → Type 1 where
  | done {α : Type} (a : α) : Prog σ Q E α
  | act {α β : Type} (f : σ → Except E (β × σ)) (k : β → Prog σ Q E α) : Prog σ Q E α
  | ask {α β : Type} (q : Q β) (k : β → Prog σ Q E α) : Prog σ Q E α
  | atomic {α β : Type} (p : Prog σ Q E β) (k : β → Prog σ Q E α) : Prog σ Q E α

/-- What the environment may answer: `ok β s q a` lets it answer `a` to `q` in
state `s`. -/
abbrev Answers (σ : Type) (Q : Type → Type) : Type 1 := ∀ β : Type, σ → Q β → β → Prop

namespace Prog

variable {σ : Type} {Q : Type → Type} {E α β γ : Type}

/-! ## the monad -/

/-- Sequential composition. -/
def bind : Prog σ Q E α → (α → Prog σ Q E β) → Prog σ Q E β
  | .done a, f => f a
  | .act g k, f => .act g fun b => (k b).bind f
  | .ask q k, f => .ask q fun a => (k a).bind f
  | .atomic p k, f => .atomic p fun b => (k b).bind f

instance : Monad (Prog σ Q E) where
  pure := .done
  bind := .bind

@[simp] theorem pure_eq (a : α) : (pure a : Prog σ Q E α) = .done a := rfl

@[simp] theorem bind_eq (p : Prog σ Q E α) (f : α → Prog σ Q E β) : p >>= f = p.bind f := rfl

@[simp] theorem done_bind (a : α) (f : α → Prog σ Q E β) : (done a).bind f = f a := rfl

@[simp] theorem act_bind (g : σ → Except E (γ × σ)) (k : γ → Prog σ Q E α)
    (f : α → Prog σ Q E β) : (act g k).bind f = act g fun b => (k b).bind f := rfl

@[simp] theorem ask_bind (q : Q γ) (k : γ → Prog σ Q E α) (f : α → Prog σ Q E β) :
    (ask q k).bind f = ask q fun a => (k a).bind f := rfl

@[simp] theorem atomic_bind (p : Prog σ Q E γ) (k : γ → Prog σ Q E α)
    (f : α → Prog σ Q E β) : (atomic p k).bind f = atomic p fun b => (k b).bind f := rfl

/-- Returning what was returned changes nothing. -/
theorem bind_done (p : Prog σ Q E α) : p.bind done = p := by
  induction p with
  | done a => rfl
  | act g k ih => simp only [act_bind, ih]
  | ask q k ih => simp only [ask_bind, ih]
  | atomic p k _ ih => simp only [atomic_bind, ih]

/-- Sequencing is associative. -/
theorem bind_assoc (p : Prog σ Q E α) (f : α → Prog σ Q E β) (g : β → Prog σ Q E γ) :
    (p.bind f).bind g = p.bind fun a => (f a).bind g := by
  induction p with
  | done a => rfl
  | act g k ih => simp only [act_bind, ih]
  | ask q k ih => simp only [ask_bind, ih]
  | atomic p k _ ih => simp only [atomic_bind, ih]

/-! ## single actions -/

/-- Read something off the state. -/
def read (f : σ → β) : Prog σ Q E β := .act (fun s => .ok (f s, s)) .done

/-- Update the state. -/
def modify (f : σ → σ) : Prog σ Q E Unit := .act (fun s => .ok ((), f s)) .done

/-- Update the state and return something, or fault. -/
def update (f : σ → Except E (β × σ)) : Prog σ Q E β := .act f .done

/-- Return something, or fault, without touching the state. -/
def lift (x : Except E β) : Prog σ Q E β := .act (fun s => x.map fun b => (b, s)) .done

/-- Stop with a fault. -/
def fault (e : E) : Prog σ Q E β := .act (fun _ => .error e) .done

/-- Ask the environment. -/
def query (q : Q β) : Prog σ Q E β := .ask q .done

/-- Run a program as one action. -/
def atomically (p : Prog σ Q E β) : Prog σ Q E β := .atomic p .done

/-- `some` or a fault. -/
def orFault (e : E) : Option β → Except E β
  | some b => .ok b
  | none => .error e

@[simp] theorem orFault_some (e : E) (b : β) : orFault e (some b) = .ok b := rfl

@[simp] theorem orFault_none (e : E) : orFault e (none : Option β) = .error e := rfl

/-- There is a result where the operation had one. -/
theorem orFault_eq_ok {e : E} {o : Option β} {b : β} : orFault e o = .ok b ↔ o = some b := by
  cases o <;> simp

end Prog

/-! ## parts of the state -/

/-- A part of a state, such as one object in memory. -/
structure Lens (σ α : Type) where
  get : σ → α
  set : α → σ → σ
  get_set : ∀ a s, get (set a s) = a

namespace Lens

variable {σ : Type} {Q : Type → Type} {E α β : Type} (l : Lens σ α)

/-- Read something off the part. -/
def read (f : α → β) : Prog σ Q E β := Prog.read fun s => f (l.get s)

/-- Update the part. -/
def modify (f : α → α) : Prog σ Q E Unit := Prog.modify fun s => l.set (f (l.get s)) s

/-- Update the part and return something, or fault. -/
def update (f : α → Except E (β × α)) : Prog σ Q E β :=
  Prog.update fun s => (f (l.get s)).map fun r => (r.1, l.set r.2 s)

/-- Read something off the part, or fault. -/
def view (f : α → Except E β) : Prog σ Q E β :=
  Prog.update fun s => (f (l.get s)).map fun b => (b, s)

@[simp] theorem get_set' (a : α) (s : σ) : l.get (l.set a s) = a := l.get_set a s

/-- Nothing but the part is changed. -/
structure Lawful : Prop where
  set_get : ∀ s, l.set (l.get s) s = s
  set_set : ∀ a b s, l.set a (l.set b s) = l.set a s

/-- A part of a part. -/
def comp (m : Lens α β) : Lens σ β where
  get s := m.get (l.get s)
  set b s := l.set (m.set b (l.get s)) s
  get_set b s := by rw [l.get_set, m.get_set]

/-- An element of an array. -/
def element {ι : Type} [DecidableEq ι] (i : ι) : Lens (ι → α) α where
  get f := f i
  set a f := Function.update f i a
  get_set a f := Function.update_self i a f

end Lens

namespace Prog

variable {σ : Type} {Q : Type → Type} {E α β γ : Type}

/-! ## running alone -/

section Alone

variable (ok : Answers σ Q)

/-- `Exec ok p s r`: run alone from `s`, the program `p` may end in `r`. -/
inductive Exec : {α : Type} → Prog σ Q E α → σ → Except E (α × σ) → Prop where
  | done {α : Type} (a : α) (s : σ) : Exec (.done a) s (.ok (a, s))
  | fault {α β : Type} {f : σ → Except E (β × σ)} {k : β → Prog σ Q E α} {s : σ} {e : E} :
      f s = .error e → Exec (.act f k) s (.error e)
  | act {α β : Type} {f : σ → Except E (β × σ)} {k : β → Prog σ Q E α} {s s' : σ} {b : β}
      {r : Except E (α × σ)} : f s = .ok (b, s') → Exec (k b) s' r → Exec (.act f k) s r
  | ask {α β : Type} {q : Q β} {k : β → Prog σ Q E α} {s : σ} {a : β} {r : Except E (α × σ)} :
      ok β s q a → Exec (k a) s r → Exec (.ask q k) s r
  | atomicFault {α β : Type} {p : Prog σ Q E β} {k : β → Prog σ Q E α} {s : σ} {e : E} :
      Exec p s (.error e) → Exec (.atomic p k) s (.error e)
  | atomic {α β : Type} {p : Prog σ Q E β} {k : β → Prog σ Q E α} {s s' : σ} {b : β}
      {r : Except E (α × σ)} :
      Exec p s (.ok (b, s')) → Exec (k b) s' r → Exec (.atomic p k) s r

/-- The weakest precondition: whatever the environment answers, `p` faults only
with an `e` such that `bad e`, and otherwise ends in `post`. -/
def wp (bad : E → Prop) : {α : Type} → Prog σ Q E α → (α → σ → Prop) → σ → Prop
  | _, .done a, post, s => post a s
  | _, .act f k, post, s =>
      match f s with
      | .error e => bad e
      | .ok (b, s') => wp bad (k b) post s'
  | _, .ask q k, post, s => ∀ a, ok _ s q a → wp bad (k a) post s
  | _, .atomic p k, post, s => wp bad p (fun b s' => wp bad (k b) post s') s

variable {ok} {bad : E → Prop}

/-- A weaker postcondition holds too. -/
theorem wp_mono {p : Prog σ Q E α} {post post' : α → σ → Prop} {s : σ}
    (h : ∀ a s, post a s → post' a s) : wp ok bad p post s → wp ok bad p post' s := by
  induction p generalizing s with
  | done a => exact h a s
  | act f k ih =>
      simp only [wp]
      cases f s with
      | error e => exact id
      | ok r => exact ih _ h
  | ask q k ih => exact fun hw a ha => ih _ h (hw a ha)
  | atomic p k ihp ihk => exact ihp fun b s' => ihk b h

/-- The rule of sequential composition. -/
theorem wp_bind {p : Prog σ Q E α} {f : α → Prog σ Q E β} {post : β → σ → Prop} {s : σ} :
    wp ok bad (p.bind f) post s ↔ wp ok bad p (fun a s' => wp ok bad (f a) post s') s := by
  induction p generalizing s with
  | done a => exact Iff.rfl
  | act g k ih =>
      simp only [act_bind, wp]
      cases g s with
      | error e => exact Iff.rfl
      | ok r => exact ih _
  | ask q k ih => exact forall_congr' fun a => imp_congr_right fun _ => ih a
  | atomic p k ihp ihk =>
      simp only [atomic_bind, wp]
      constructor <;> exact wp_mono fun b s' => by simp only [ihk, imp_self]

/-- A finished program. -/
@[simp] theorem wp_done (a : α) (post : α → σ → Prop) (s : σ) :
    wp ok bad (done a : Prog σ Q E α) post s ↔ post a s := ⟨id, id⟩

/-- A read leaves the state. -/
@[simp] theorem wp_read (f : σ → β) (post : β → σ → Prop) (s : σ) :
    wp ok bad (read f : Prog σ Q E β) post s ↔ post (f s) s := ⟨id, id⟩

/-- A write that cannot fault. -/
@[simp] theorem wp_modify (f : σ → σ) (post : Unit → σ → Prop) (s : σ) :
    wp ok bad (modify f : Prog σ Q E Unit) post s ↔ post () (f s) := ⟨id, id⟩

/-- A fault must be one of those tolerated. -/
@[simp] theorem wp_fault (e : E) (post : β → σ → Prop) (s : σ) :
    wp ok bad (fault e : Prog σ Q E β) post s ↔ bad e := ⟨id, id⟩

/-- Whatever the environment may answer. -/
@[simp] theorem wp_query (q : Q β) (post : β → σ → Prop) (s : σ) :
    wp ok bad (query q : Prog σ Q E β) post s ↔ ∀ a, ok _ s q a → post a s := ⟨id, id⟩

/-- On its own, a section is the program in it. -/
@[simp] theorem wp_atomically (p : Prog σ Q E β) (post : β → σ → Prop) (s : σ) :
    wp ok bad (atomically p) post s ↔ wp ok bad p post s := ⟨id, id⟩

/-- An update that does not fault. -/
theorem wp_update_ok {f : σ → Except E (β × σ)} {post : β → σ → Prop} {s : σ} {r : β × σ}
    (hf : f s = .ok r) : wp ok bad (update f : Prog σ Q E β) post s ↔ post r.1 r.2 := by
  simp only [update, wp, hf]

/-- A read of a part. -/
@[simp] theorem wp_lens_read (l : Lens σ α) (f : α → β) (post : β → σ → Prop) (s : σ) :
    wp ok bad (l.read f : Prog σ Q E β) post s ↔ post (f (l.get s)) s := ⟨id, id⟩

/-- A write of a part. -/
@[simp] theorem wp_lens_modify (l : Lens σ α) (f : α → α) (post : Unit → σ → Prop) (s : σ) :
    wp ok bad (l.modify f : Prog σ Q E Unit) post s ↔ post () (l.set (f (l.get s)) s) := ⟨id, id⟩

/-- An update of a part that does not fault. -/
theorem wp_lens_update {l : Lens σ α} {f : α → Except E (β × α)} {post : β → σ → Prop} {s : σ}
    {r : β × α} (hf : f (l.get s) = .ok r) :
    wp ok bad (l.update f : Prog σ Q E β) post s ↔ post r.1 (l.set r.2 s) := by
  simp only [Lens.update, update, wp, hf, Except.map]

/-- Something computed without faulting. -/
@[simp] theorem wp_lift_ok (b : β) (post : β → σ → Prop) (s : σ) :
    wp ok bad (lift (.ok b) : Prog σ Q E β) post s ↔ post b s := ⟨id, id⟩

/-- A read of a part that does not fault. -/
theorem wp_lens_view {l : Lens σ α} {f : α → Except E β} {post : β → σ → Prop} {s : σ} {b : β}
    (hf : f (l.get s) = .ok b) :
    wp ok bad (l.view f : Prog σ Q E β) post s ↔ post b s := by
  simp only [Lens.view, update, wp, hf, Except.map]

/-- Each branch under its condition. -/
theorem wp_ite {c : Prop} [Decidable c] {p q : Prog σ Q E α} {post : α → σ → Prop} {s : σ} :
    wp ok bad (if c then p else q) post s ↔ if c then wp ok bad p post s else wp ok bad q post s := by
  split_ifs <;> rfl

/-- Where every question has an answer, a program run alone ends. -/
theorem exists_exec (hok : ∀ β s (q : Q β), ∃ a, ok β s q a) (p : Prog σ Q E α) (s : σ) :
    ∃ r, Exec ok p s r := by
  induction p generalizing s with
  | done a => exact ⟨_, .done a s⟩
  | act f k ih =>
      cases hf : f s with
      | error e => exact ⟨_, .fault hf⟩
      | ok r =>
          obtain ⟨r', hr'⟩ := ih r.1 r.2
          exact ⟨r', .act hf hr'⟩
  | ask q k ih =>
      obtain ⟨a, ha⟩ := hok _ s q
      obtain ⟨r, hr⟩ := ih a s
      exact ⟨r, .ask ha hr⟩
  | atomic p k ihp ihk =>
      obtain ⟨r, hr⟩ := ihp s
      cases r with
      | error e => exact ⟨_, .atomicFault hr⟩
      | ok r =>
          obtain ⟨r', hr'⟩ := ihk r.1 r.2
          exact ⟨r', .atomic hr hr'⟩

/-- Run alone, each question answered by `answer`. -/
def run (answer : ∀ β : Type, σ → Q β → β) : {α : Type} → Prog σ Q E α → σ → Except E (α × σ)
  | _, .done a, s => .ok (a, s)
  | _, .act f k, s =>
      match f s with
      | .error e => .error e
      | .ok (b, s') => run answer (k b) s'
  | _, .ask q k, s => run answer (k (answer _ s q)) s
  | _, .atomic p k, s =>
      match run answer p s with
      | .error e => .error e
      | .ok (b, s') => run answer (k b) s'

/-- It is one of the runs there are. -/
theorem exec_run {answer : ∀ β : Type, σ → Q β → β} (hok : ∀ β s (q : Q β), ok β s q (answer β s q))
    (p : Prog σ Q E α) (s : σ) : Exec ok p s (run answer p s) := by
  induction p generalizing s with
  | done a => exact .done a s
  | act f k ih =>
      simp only [run]
      cases hf : f s with
      | error e => exact .fault hf
      | ok r => exact .act hf (ih r.1 r.2)
  | ask q k ih => exact .ask (hok _ s q) (ih _ s)
  | atomic p k ihp ihk =>
      simp only [run]
      have hp := ihp s
      cases hr : run answer p s with
      | error e => exact .atomicFault (hr ▸ hp)
      | ok r => exact .atomic (hr ▸ hp) (ihk r.1 r.2)

/-- A run stays a run when the environment may answer more. -/
theorem Exec.weaken {ok' : Answers σ Q} (h : ∀ β s (q : Q β) a, ok β s q a → ok' β s q a)
    {p : Prog σ Q E α} {s : σ} {r : Except E (α × σ)} (hr : Exec ok p s r) : Exec ok' p s r := by
  induction hr with
  | done a s => exact .done a s
  | fault hf => exact .fault hf
  | act hf _ ih => exact .act hf ih
  | ask ha _ ih => exact .ask (h _ _ _ _ ha) ih
  | atomicFault _ ih => exact .atomicFault ih
  | atomic _ _ ihp ihk => exact .atomic ihp ihk

/-- What a run may end in, by `wp`. -/
def Meets (bad : E → Prop) (post : α → σ → Prop) : Except E (α × σ) → Prop
  | .error e => bad e
  | .ok (a, s) => post a s

/-- Every run alone satisfies `wp`. -/
theorem Exec.meets {p : Prog σ Q E α} {s : σ} {r : Except E (α × σ)} (h : Exec ok p s r)
    {post : α → σ → Prop} (hp : wp ok bad p post s) : Meets bad post r := by
  induction h with
  | done a s => exact hp
  | fault hf =>
      simp only [wp, hf] at hp
      exact hp
  | act hf _ ih =>
      simp only [wp, hf] at hp
      exact ih hp
  | ask ha _ ih => exact ih (hp _ ha)
  | atomicFault _ ih => exact ih hp
  | atomic _ _ ihp ihk => exact ihk (ihp hp)

/-- And `wp` is no more than that. -/
theorem wp_of_meets {p : Prog σ Q E α} {post : α → σ → Prop} {s : σ}
    (h : ∀ r, Exec ok p s r → Meets bad post r) : wp ok bad p post s := by
  induction p generalizing s with
  | done a => exact h _ (.done a s)
  | act f k ih =>
      simp only [wp]
      cases hf : f s with
      | error e => exact h _ (.fault hf)
      | ok r => exact ih r.1 fun r' hr' => h r' (.act hf hr')
  | ask q k ih => exact fun a ha => ih a fun r hr => h r (.ask ha hr)
  | atomic p k ihp ihk =>
      refine ihp fun r hr => ?_
      cases r with
      | error e => exact h _ (.atomicFault hr)
      | ok r => exact ihk r.1 fun r' hr' => h r' (.atomic hr hr')

/-- A run that ends ends in the postcondition. -/
theorem Exec.post {p : Prog σ Q E α} {s s' : σ} {a : α} (h : Exec ok p s (.ok (a, s')))
    {post : α → σ → Prop} (hp : wp ok bad p post s) : post a s' := h.meets hp

/-- Where every question has an answer and no fault is tolerated, some run ends
in the postcondition. -/
theorem exists_ok (hok : ∀ β s (q : Q β), ∃ a, ok β s q a) {p : Prog σ Q E α}
    {post : α → σ → Prop} {s : σ} (hp : wp ok (fun _ => False) p post s) :
    ∃ a s', Exec ok p s (.ok (a, s')) ∧ post a s' := by
  obtain ⟨r, hr⟩ := exists_exec hok p s
  have hmeets := hr.meets hp
  cases r with
  | error e => exact hmeets.elim
  | ok r => exact ⟨r.1, r.2, hr, hmeets⟩

/-- A run that faults faults in a tolerated way. -/
theorem Exec.tolerated {p : Prog σ Q E α} {s : σ} {e : E} (h : Exec ok p s (.error e))
    {post : α → σ → Prop} (hp : wp ok bad p post s) : bad e := h.meets hp

/-! ## taken apart -/

/-- The program with its sections taken apart: their actions are actions of its own. -/
def inParts : {α : Type} → Prog σ Q E α → Prog σ Q E α
  | _, .done a => .done a
  | _, .act f k => .act f fun b => (k b).inParts
  | _, .ask q k => .ask q fun a => (k a).inParts
  | _, .atomic p k => p.inParts.bind fun b => (k b).inParts

/-- The parts of a sequence. -/
theorem inParts_bind (p : Prog σ Q E α) (f : α → Prog σ Q E β) :
    (p.bind f).inParts = p.inParts.bind fun a => (f a).inParts := by
  induction p with
  | done a => rfl
  | act g k ih => simp only [act_bind, inParts, ih]
  | ask q k ih => simp only [ask_bind, inParts, ih]
  | atomic p k _ ih => simp only [atomic_bind, inParts, ih, bind_assoc]

/-- Run alone, it does what the program does. -/
theorem wp_inParts {p : Prog σ Q E α} {post : α → σ → Prop} {s : σ} :
    wp ok bad p.inParts post s ↔ wp ok bad p post s := by
  induction p generalizing s with
  | done a => exact Iff.rfl
  | act f k ih =>
      simp only [inParts, wp]
      cases f s with
      | error e => exact Iff.rfl
      | ok r => exact ih _
  | ask q k ih => exact forall_congr' fun a => imp_congr_right fun _ => ih a
  | atomic p k ihp ihk =>
      rw [inParts, wp_bind, ihp]
      exact ⟨wp_mono fun b s' => (ihk b).mp, wp_mono fun b s' => (ihk b).mpr⟩

end Alone

/-! ## one action at a time -/

/-- `Step ok p s p' s'`: the next action of `p` takes `s` to `s'` and leaves the
program `p'`. -/
inductive Step (ok : Answers σ Q) : Prog σ Q E α → σ → Prog σ Q E α → σ → Prop where
  | act {β : Type} {f : σ → Except E (β × σ)} {k : β → Prog σ Q E α} {s s' : σ} {b : β} :
      f s = .ok (b, s') → Step ok (.act f k) s (k b) s'
  | ask {β : Type} {q : Q β} {k : β → Prog σ Q E α} {s : σ} {a : β} :
      ok _ s q a → Step ok (.ask q k) s (k a) s
  | atomic {β : Type} {p : Prog σ Q E β} {k : β → Prog σ Q E α} {s s' : σ} {b : β} :
      Exec ok p s (.ok (b, s')) → Step ok (.atomic p k) s (k b) s'

/-- `Faults ok p s e`: the next action of `p` faults with `e` in `s`. -/
inductive Faults (ok : Answers σ Q) : Prog σ Q E α → σ → E → Prop where
  | act {β : Type} {f : σ → Except E (β × σ)} {k : β → Prog σ Q E α} {s : σ} {e : E} :
      f s = .error e → Faults ok (.act f k) s e
  | atomic {β : Type} {p : Prog σ Q E β} {k : β → Prog σ Q E α} {s : σ} {e : E} :
      Exec ok p s (.error e) → Faults ok (.atomic p k) s e

/-! ## what every action does

A fact of the text of a program, wherever and among whatever others its actions are done. -/

section Every

variable {ok : Answers σ Q} {G : σ → σ → Prop}

/-- Both of two postconditions. -/
theorem wp_and {bad bad' : E → Prop} {p : Prog σ Q E α} {post post' : α → σ → Prop} {s : σ} :
    wp ok bad p post s → wp ok bad' p post' s →
      wp ok bad p (fun a s' => post a s' ∧ post' a s') s := by
  induction p generalizing s with
  | done a => exact And.intro
  | act f k ih =>
      simp only [wp]
      cases f s with
      | error e => exact fun h _ => h
      | ok r => exact ih r.1
  | ask q k ih => exact fun h h' a ha => ih a (h a ha) (h' a ha)
  | atomic p k ihp ihk =>
      intro h h'
      exact wp_mono (p := p) (fun b s' hb => ihk b hb.1 hb.2) (ihp h h')

/-- More faults may be tolerated. -/
theorem wp_bad {bad bad' : E → Prop} (h : ∀ e, bad e → bad' e) {p : Prog σ Q E α}
    {post : α → σ → Prop} {s : σ} : wp ok bad p post s → wp ok bad' p post s := by
  induction p generalizing s with
  | done a => exact id
  | act f k ih =>
      simp only [wp]
      cases f s with
      | error e => exact h e
      | ok r => exact ih r.1
  | ask q k ih => exact fun hp a ha => ih a (hp a ha)
  | atomic p k ihp ihk => exact fun hp => wp_mono (p := p) (fun b s' hb => ihk b hb) (ihp hp)

/-- Every action of the program changes a state as `G` says, from any state. -/
def Every (ok : Answers σ Q) (G : σ → σ → Prop) : {α : Type} → Prog σ Q E α → Prop
  | _, .done _ => True
  | _, .act f k => (∀ s b s', f s = .ok (b, s') → G s s') ∧ ∀ b, Every ok G (k b)
  | _, .ask _ k => ∀ a, Every ok G (k a)
  | _, .atomic p k => (∀ s, wp ok (fun _ => True) p (fun _ s' => G s s') s) ∧
      ∀ b, Every ok G (k b)

/-- The actions of a sequence are those of its parts. -/
theorem Every.bind {p : Prog σ Q E α} {f : α → Prog σ Q E β} (hp : p.Every ok G)
    (hf : ∀ a, (f a).Every ok G) : (p.bind f).Every ok G := by
  induction p with
  | done a => exact hf a
  | act g k ih => exact ⟨hp.1, fun b => ih b (hp.2 b) hf⟩
  | ask q k ih => exact fun a => ih a (hp a) hf
  | atomic p k _ ih => exact ⟨hp.1, fun b => ih b (hp.2 b) hf⟩

/-- Actions that do as `G` says do as anything weaker says. -/
theorem Every.mono {G' : σ → σ → Prop} (hG : ∀ s s', G s s' → G' s s') {p : Prog σ Q E α}
    (hp : p.Every ok G) : p.Every ok G' := by
  induction p with
  | done a => trivial
  | act f k ih => exact ⟨fun s b s' hf => hG _ _ (hp.1 s b s' hf), fun b => ih b (hp.2 b)⟩
  | ask q k ih => exact fun a => ih a (hp a)
  | atomic p k _ ih =>
      exact ⟨fun s => wp_mono (fun _ s' => hG s s') (hp.1 s), fun b => ih b (hp.2 b)⟩

/-- Run alone, the program changes a state as its actions do. -/
theorem Every.wp (hrefl : ∀ s, G s s) (htrans : ∀ s s' s'', G s s' → G s' s'' → G s s'')
    {p : Prog σ Q E α} (hp : p.Every ok G) (s : σ) :
    Prog.wp ok (fun _ => True) p (fun _ s' => G s s') s := by
  induction p generalizing s with
  | done a => exact hrefl s
  | act f k ih =>
      have hf := hp.1 s
      simp only [Prog.wp]
      revert hf
      cases f s with
      | error e => exact fun _ => trivial
      | ok r => exact fun hf => wp_mono (fun _ s' => htrans _ _ _ (hf _ _ rfl)) (ih _ (hp.2 _) _)
  | ask q k ih => exact fun a _ => ih a (hp a) s
  | atomic p k _ ih =>
      exact wp_mono (p := p) (fun b s' hs' => wp_mono (fun _ s'' => htrans s s' s'' hs')
        (ih b (hp.2 b) s')) (hp.1 s)

/-- A section is one action: the actions in it compose to it. -/
theorem Every.atomically {p : Prog σ Q E α}
    (hp : ∀ s, Prog.wp ok (fun _ => True) p (fun _ s' => G s s') s) :
    (Prog.atomically p).Every ok G := ⟨hp, fun _ => trivial⟩

/-- A finished program has no actions. -/
theorem Every.done (a : α) : (done a : Prog σ Q E α).Every ok G := trivial

/-- One action, that may fault. -/
theorem Every.update {f : σ → Except E (β × σ)} (h : ∀ s b s', f s = .ok (b, s') → G s s') :
    (Prog.update f).Every ok G := ⟨h, fun _ => trivial⟩

/-- An update of a part, however it is set. -/
theorem Every.set {γ : Type} {l : Lens σ γ} (hl : ∀ s x, G s (l.set x s))
    (f : γ → Except E (β × γ)) : (l.update f).Every ok G :=
  .update fun s b s' h => by
    cases hf : f (l.get s) with
    | error e =>
        rw [hf] at h
        cases h
    | ok r =>
        rw [hf] at h
        obtain ⟨-, rfl⟩ := Prod.mk.inj (Except.ok.inj h)
        exact hl _ _

/-- One action. -/
theorem Every.modify {f : σ → σ} (hf : ∀ s, G s (f s)) :
    (Prog.modify f : Prog σ Q E Unit).Every ok G :=
  .update fun s b s' h => by
    obtain ⟨-, rfl⟩ := Prod.mk.inj (Except.ok.inj h)
    exact hf s

/-- A read changes nothing. -/
theorem Every.read (hrefl : ∀ s, G s s) (f : σ → β) :
    (Prog.read f : Prog σ Q E β).Every ok G :=
  .update fun s b s' h => by
    obtain ⟨-, rfl⟩ := Prod.mk.inj (Except.ok.inj h)
    exact hrefl s

/-- Nor does a read that may fault. -/
theorem Every.view {γ : Type} (hrefl : ∀ s, G s s) (l : Lens σ γ) (f : γ → Except E β) :
    (l.view f).Every ok G :=
  .update fun s b s' h => by
    cases hf : f (l.get s) with
    | error e =>
        rw [hf] at h
        cases h
    | ok r =>
        rw [hf] at h
        obtain ⟨-, rfl⟩ := Prod.mk.inj (Except.ok.inj h)
        exact hrefl s

/-- Nor a result that is known already. -/
theorem Every.lift (hrefl : ∀ s, G s s) (x : Except E β) :
    (Prog.lift x : Prog σ Q E β).Every ok G :=
  .update fun s b s' h => by
    cases x with
    | error e => cases h
    | ok y =>
        obtain ⟨-, rfl⟩ := Prod.mk.inj (Except.ok.inj h)
        exact hrefl s

/-- A fault ends the program before anything is done. -/
theorem Every.fault (e : E) : (Prog.fault e : Prog σ Q E β).Every ok G :=
  .update fun _ _ _ h => by cases h

/-- Asking changes nothing. -/
theorem Every.query (q : Q β) : (Prog.query q : Prog σ Q E β).Every ok G := fun _ => trivial

/-- Either branch. -/
theorem Every.ite {c : Prop} [Decidable c] {p q : Prog σ Q E α} (hp : p.Every ok G)
    (hq : q.Every ok G) : (if c then p else q).Every ok G := by
  split_ifs
  · exact hp
  · exact hq

/-- Something every program does. -/
theorem Every.any (p : Prog σ Q E α) : p.Every ok fun _ _ => True := by
  induction p with
  | done a => trivial
  | act f k ih => exact ⟨fun _ _ _ _ => trivial, ih⟩
  | ask q k ih => exact ih
  | atomic p k _ ih => exact ⟨fun _ => wp_of_meets fun r _ => by cases r <;> trivial, ih⟩

end Every

end Prog

end ServerStudy
