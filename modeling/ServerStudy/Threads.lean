import Mathlib.Algebra.BigOperators.Group.Finset.Piecewise
import ServerStudy.Prog

/-!
# ServerStudy.Threads

Threads that run programs on a shared state, interleaved action by action, and a
way to reason about them one thread at a time.

A thread owns some *tokens*; a `Discipline` relates the shared state to all the
tokens there are.  `Safe` says of one program that, whatever the others own, it
keeps that relation at each of its actions, giving its own tokens up, taking
new ones, or trading them.  Tokens exist in proofs only.

* `Good.step` — when every operation is safe, every step of every thread keeps
  the whole system good;
* `Good.run` — and so does every run;
* `Good.tolerated` — and actions fault as the discipline tolerates only.
-/

namespace ServerStudy

/-! ## systems of threads -/

/-- What threads may do: operations, which run on the shared state and on
registers filled from the thread's variables and written back at the end. -/
structure Client (S L : Type) (Q : Type → Type) (E : Type) where
  Op : Type
  Reg : Type
  can : Op → L → Prop
  enter : Op → L → Reg
  prog : Op → Prog (S × Reg) Q E Unit
  leave : Op → L → Reg → L

variable {S L : Type} {Q : Type → Type} {E : Type}

/-- An operation in progress. -/
structure Running (C : Client S L Q E) where
  op : C.Op
  reg : C.Reg
  rest : Prog (S × C.Reg) Q E Unit

/-- A thread: its variables, as they were before the operation in progress. -/
structure Thread (C : Client S L Q E) where
  locals : L
  running : Option (Running C)

/-- A shared state and the threads on it. -/
structure Config (C : Client S L Q E) (ι : Type) where
  shared : S
  thread : ι → Thread C

namespace Config

variable {C : Client S L Q E} {ι : Type} [DecidableEq ι]

/-- Replace a thread. -/
def setThread (c : Config C ι) (t : ι) (th : Thread C) : Config C ι :=
  { c with thread := Function.update c.thread t th }

/-- One step of thread `t`: it starts an operation, does the next action of one,
or ends one. -/
inductive Step (ok : Answers (S × C.Reg) Q) (t : ι) : Config C ι → Config C ι → Prop where
  | start {c : Config C ι} {op : C.Op} :
      (c.thread t).running = none → C.can op (c.thread t).locals →
      Step ok t c (c.setThread t
        ⟨(c.thread t).locals, some ⟨op, C.enter op (c.thread t).locals, C.prog op⟩⟩)
  | act {c : Config C ι} {r : Running C} {s' : S} {reg' : C.Reg}
      {rest' : Prog (S × C.Reg) Q E Unit} :
      (c.thread t).running = some r →
      Prog.Step ok r.rest (c.shared, r.reg) rest' (s', reg') →
      Step ok t c ({ c with shared := s' }.setThread t
        ⟨(c.thread t).locals, some ⟨r.op, reg', rest'⟩⟩)
  | finish {c : Config C ι} {r : Running C} :
      (c.thread t).running = some r → r.rest = .done () →
      Step ok t c (c.setThread t ⟨C.leave r.op (c.thread t).locals r.reg, none⟩)

/-- What is reached from `c₀` by steps of any threads, through states with `guard`. -/
inductive Reach (ok : Answers (S × C.Reg) Q) (guard : S → Prop) (c₀ : Config C ι) :
    Config C ι → Prop where
  | refl : Reach ok guard c₀ c₀
  | step {c c' : Config C ι} {t : ι} : Reach ok guard c₀ c → Step ok t c c' → guard c'.shared →
      Reach ok guard c₀ c'

/-- The last of several changes of one thread counts. -/
theorem setThread_setThread (c : Config C ι) (s s' : S) (t : ι) (th th' : Thread C) :
    { { c with shared := s }.setThread t th with shared := s' }.setThread t th' =
      { c with shared := s' }.setThread t th' := by
  simp [setThread]

section Whole

variable {ok : Answers (S × C.Reg) Q} {guard : S → Prop} {G : S × C.Reg → S × C.Reg → Prop}
  {c₀ : Config C ι}

/-- A thread may run part of its operation without being interrupted. -/
theorem Reach.exec_bind (hG : ∀ x x', guard x.1 → G x x' → guard x'.1) {t : ι} {op : C.Op}
    {α : Type} {p : Prog (S × C.Reg) Q E α} {s : S × C.Reg} {r : Except E (α × (S × C.Reg))}
    (hexec : Prog.Exec ok p s r) (hp : p.Every ok G) {k : α → Prog (S × C.Reg) Q E Unit} {a : α}
    {s' : S} {reg' : C.Reg} (hr : r = .ok (a, (s', reg'))) (c : Config C ι)
    (hc : Reach ok guard c₀ c) (hg : guard c.shared)
    (hrun : (c.thread t).running = some ⟨op, s.2, p.bind k⟩) (hs : s.1 = c.shared) :
    Reach ok guard c₀
      ({ c with shared := s' }.setThread t ⟨(c.thread t).locals, some ⟨op, reg', k a⟩⟩) ∧
      guard s' := by
  induction hexec generalizing c with
  | done b s =>
      cases hr
      have hthread : Function.update c.thread t ⟨(c.thread t).locals, (c.thread t).running⟩ =
          c.thread := Function.update_eq_self t c.thread
      rw [hrun] at hthread
      simp only at hs
      subst hs
      simp only [setThread]
      rw [← Prog.done_bind b k, hthread]
      exact ⟨hc, hg⟩
  | fault hf => cases hr
  | @act β γ f k' s₁ s₂ b r hf _ ih =>
      have hact : Prog.Step ok (Prog.act f fun b => (k' b).bind k) (c.shared, s₁.2)
          ((k' b).bind k) (s₂.1, s₂.2) := by
        rw [← hs]
        exact .act hf
      have hg₂ : guard s₂.1 := hG s₁ s₂ (hs ▸ hg) (hp.1 _ _ _ hf)
      have hstep := Reach.step hc (.act hrun hact) hg₂
      have hend := @ih (hp.2 b) k a hr _ hstep hg₂ (by simp [setThread]) rfl
      rw [setThread_setThread] at hend
      simpa [setThread] using hend
  | @ask β γ q k' s a' r ha _ ih =>
      have hact : Prog.Step ok (Prog.ask q fun b => (k' b).bind k) (c.shared, s.2)
          ((k' a').bind k) (s.1, s.2) := by
        rw [← hs]
        exact .ask ha
      have hg₂ : guard s.1 := hs ▸ hg
      have hstep := Reach.step hc (.act hrun hact) hg₂
      have hend := @ih (hp a') k a hr _ hstep hg₂ (by simp [setThread]) rfl
      rw [setThread_setThread] at hend
      simpa [setThread] using hend
  | atomicFault _ _ => cases hr
  | @atomic β γ p k' s₁ s₂ b r hp' _ _ ih =>
      have hact : Prog.Step ok (Prog.atomic p fun b => (k' b).bind k) (c.shared, s₁.2)
          ((k' b).bind k) (s₂.1, s₂.2) := by
        rw [← hs]
        exact .atomic hp'
      have hg₂ : guard s₂.1 := hG s₁ s₂ (hs ▸ hg) (hp'.post (hp.1 s₁))
      have hstep := Reach.step hc (.act hrun hact) hg₂
      have hend := @ih (hp.2 b) k a hr _ hstep hg₂ (by simp [setThread]) rfl
      rw [setThread_setThread] at hend
      simpa [setThread] using hend

/-- A thread may do a whole operation without being interrupted, where its actions keep the
guard. -/
theorem Reach.whole_within (hG : ∀ x x', guard x.1 → G x x' → guard x'.1) {c : Config C ι} {t : ι}
    {op : C.Op} {s' : S} {reg' : C.Reg} (hc : Reach ok guard c₀ c) (hg : guard c.shared)
    (hidle : (c.thread t).running = none) (hcan : C.can op (c.thread t).locals)
    (hp : (C.prog op).Every ok G)
    (hexec : Prog.Exec ok (C.prog op) (c.shared, C.enter op (c.thread t).locals)
      (.ok ((), (s', reg')))) :
    Reach ok guard c₀
      ({ c with shared := s' }.setThread t ⟨C.leave op (c.thread t).locals reg', none⟩) := by
  have hstart := Reach.step hc (.start hidle hcan) hg
  obtain ⟨hend, hg'⟩ := @Reach.exec_bind _ _ _ _ _ _ _ _ guard _ _ hG t op _ _ _ _ hexec hp .done ()
    s' reg' rfl _ hstart hg (by simp [setThread, Prog.bind_done]) rfl
  have hfinish := Reach.step hend (.finish (t := t) (r := ⟨op, reg', .done ()⟩)
    (by simp [setThread]) rfl) hg'
  simpa [setThread] using hfinish

/-- A thread may do a whole operation without being interrupted. -/
theorem Reach.whole {c : Config C ι} {t : ι} {op : C.Op} {s' : S} {reg' : C.Reg}
    (hc : Reach ok (fun _ => True) c₀ c) (hidle : (c.thread t).running = none)
    (hcan : C.can op (c.thread t).locals)
    (hexec : Prog.Exec ok (C.prog op) (c.shared, C.enter op (c.thread t).locals)
      (.ok ((), (s', reg')))) :
    Reach ok (fun _ => True) c₀
      ({ c with shared := s' }.setThread t ⟨C.leave op (c.thread t).locals reg', none⟩) :=
  hc.whole_within (fun _ _ h _ => h) trivial hidle hcan (Prog.Every.any _) hexec

end Whole

/-- The next action of thread `t` faults. -/
def Faults (ok : Answers (S × C.Reg) Q) (t : ι) (c : Config C ι) (e : E) : Prop :=
  ∃ r, (c.thread t).running = some r ∧ Prog.Faults ok r.rest (c.shared, r.reg) e

/-- No operation is in progress. -/
def Quiescent (c : Config C ι) : Prop := ∀ t, (c.thread t).running = none

end Config

/-! ## one thread at a time -/

/-- How the shared state and the tokens go together.  `guard` is assumed of the
states of a run, `bad` are the faults tolerated; `inv` relates a state to all
tokens; `idle` says what a thread owns between operations, `held` what it owns
all through one; `change` is what a thread may do to the shared state by what it
owns. -/
structure Discipline (C : Client S L Q E) (T : Type) where
  guard : S → Prop
  bad : E → Prop
  inv : S → Multiset T → Prop
  idle : L → Multiset T → Prop
  held : C.Op → L → Multiset T → Prop
  change : S → S → Multiset T → Prop

variable {C : Client S L Q E} {T : Type} (D : Discipline C T) (ok : Answers (S × C.Reg) Q)

/-- `Safe D ok K p post reg r`: from registers `reg` and tokens `r`, the program
keeps `D` at each action, owns tokens with `K` all the while, and ends in `post`. -/
def Safe (K : Multiset T → Prop) : {α : Type} → Prog (S × C.Reg) Q E α →
    (α → C.Reg → Multiset T → Prop) → C.Reg → Multiset T → Prop
  | _, .done a, post, reg, r => K r ∧ post a reg r
  | _, .act f k, post, reg, r => K r ∧ ∀ s F, D.guard s → D.inv s (r + F) →
      match f (s, reg) with
      | .error e => D.bad e
      | .ok (b, s', reg') => D.guard s' → D.change s s' r ∧
          ∃ r', D.inv s' (r' + F) ∧ Safe K (k b) post reg' r'
  | _, .ask q k, post, reg, r => K r ∧ ∀ s F, D.guard s → D.inv s (r + F) →
      ∀ a, ok _ (s, reg) q a → D.change s s r ∧
        ∃ r', D.inv s (r' + F) ∧ Safe K (k a) post reg r'
  | _, .atomic p k, post, reg, r => K r ∧ ∀ s F, D.guard s → D.inv s (r + F) →
      Prog.wp ok D.bad p (fun b x => D.guard x.1 → D.change s x.1 r ∧
        ∃ r', D.inv x.1 (r' + F) ∧ Safe K (k b) post x.2 r') (s, reg)

variable {D ok} {K : Multiset T → Prop} {α β : Type}

theorem Safe.mono {K' : Multiset T → Prop} {p : Prog (S × C.Reg) Q E α}
    {post post' : α → C.Reg → Multiset T → Prop} {reg : C.Reg} {r : Multiset T}
    (hK : ∀ r, K r → K' r) (h : ∀ a reg r, post a reg r → post' a reg r) :
    Safe D ok K p post reg r → Safe D ok K' p post' reg r := by
  induction p generalizing reg r with
  | done a => exact fun hs => ⟨hK r hs.1, h a reg r hs.2⟩
  | act f k ih =>
      refine fun hs => ⟨hK r hs.1, fun s F hg hi => ?_⟩
      have hf := hs.2 s F hg hi
      revert hf
      cases f (s, reg) with
      | error e => exact id
      | ok x =>
          intro hf hg'
          obtain ⟨hc, r', hi', hk⟩ := hf hg'
          exact ⟨hc, r', hi', ih _ h hk⟩
  | ask q k ih =>
      refine fun hs => ⟨hK r hs.1, fun s F hg hi a ha => ?_⟩
      obtain ⟨hc, r', hi', hk⟩ := hs.2 s F hg hi a ha
      exact ⟨hc, r', hi', ih _ h hk⟩
  | atomic p k _ ih =>
      refine fun hs => ⟨hK r hs.1, fun s F hg hi => ?_⟩
      refine Prog.wp_mono (fun b x hx hg' => ?_) (hs.2 s F hg hi)
      obtain ⟨hc, r', hi', hk⟩ := hx hg'
      exact ⟨hc, r', hi', ih _ h hk⟩

/-- The rule of sequential composition. -/
theorem Safe.bind {p : Prog (S × C.Reg) Q E α} {f : α → Prog (S × C.Reg) Q E β}
    {post : β → C.Reg → Multiset T → Prop} {reg : C.Reg} {r : Multiset T}
    (h : Safe D ok K p (fun a reg' r' => Safe D ok K (f a) post reg' r') reg r) :
    Safe D ok K (p.bind f) post reg r := by
  induction p generalizing reg r with
  | done a => exact h.2
  | act g k ih =>
      refine ⟨h.1, fun s F hg hi => ?_⟩
      have hf := h.2 s F hg hi
      revert hf
      cases g (s, reg) with
      | error e => exact id
      | ok x =>
          intro hf hg'
          obtain ⟨hc, r', hi', hk⟩ := hf hg'
          exact ⟨hc, r', hi', ih _ hk⟩
  | ask q k ih =>
      refine ⟨h.1, fun s F hg hi a ha => ?_⟩
      obtain ⟨hc, r', hi', hk⟩ := h.2 s F hg hi a ha
      exact ⟨hc, r', hi', ih _ hk⟩
  | atomic p k _ ih =>
      refine ⟨h.1, fun s F hg hi => ?_⟩
      refine Prog.wp_mono (fun b x hx hg' => ?_) (h.2 s F hg hi)
      obtain ⟨hc, r', hi', hk⟩ := hx hg'
      exact ⟨hc, r', hi', ih _ hk⟩

/-- The rule of one action. -/
theorem Safe.update {f : S × C.Reg → Except E (β × (S × C.Reg))}
    {post : β → C.Reg → Multiset T → Prop} {reg : C.Reg} {r : Multiset T} (hK : K r)
    (h : ∀ s F, D.guard s → D.inv s (r + F) → ∃ b s' reg', f (s, reg) = .ok (b, s', reg') ∧
      (D.guard s' → D.change s s' r ∧ ∃ r', D.inv s' (r' + F) ∧ K r' ∧ post b reg' r')) :
    Safe D ok K (Prog.update f) post reg r := by
  refine ⟨hK, fun s F hg hi => ?_⟩
  obtain ⟨b, s', reg', hf, hok⟩ := h s F hg hi
  rw [hf]
  exact hok

/-- The rule of one action that may fault. -/
theorem Safe.action {f : S × C.Reg → Except E (β × (S × C.Reg))}
    {post : β → C.Reg → Multiset T → Prop} {reg : C.Reg} {r : Multiset T} (hK : K r)
    (h : ∀ s F, D.guard s → D.inv s (r + F) → Prog.wp ok D.bad (Prog.update f)
      (fun b x => D.guard x.1 → D.change s x.1 r ∧ ∃ r', D.inv x.1 (r' + F) ∧ K r' ∧
        post b x.2 r') (s, reg)) :
    Safe D ok K (Prog.update f) post reg r := by
  refine ⟨hK, fun s F hg hi => ?_⟩
  have hx := h s F hg hi
  simp only [Prog.update, Prog.wp] at hx
  revert hx
  cases f (s, reg) with
  | error e => exact id
  | ok x => exact id

/-- The rule of a section run as one action. -/
theorem Safe.atomically {p : Prog (S × C.Reg) Q E β} {post : β → C.Reg → Multiset T → Prop}
    {reg : C.Reg} {r : Multiset T} (hK : K r)
    (h : ∀ s F, D.guard s → D.inv s (r + F) → Prog.wp ok D.bad (Prog.atomically p)
      (fun b x => D.guard x.1 → D.change s x.1 r ∧ ∃ r', D.inv x.1 (r' + F) ∧ K r' ∧
        post b x.2 r') (s, reg)) :
    Safe D ok K (Prog.atomically p) post reg r :=
  ⟨hK, h⟩

/-- The next action of a safe program. -/
theorem Safe.step {p p' : Prog (S × C.Reg) Q E α} {post : α → C.Reg → Multiset T → Prop}
    {reg reg' : C.Reg} {r F : Multiset T} {s s' : S} (h : Safe D ok K p post reg r)
    (hstep : Prog.Step ok p (s, reg) p' (s', reg')) (hg : D.guard s) (hg' : D.guard s')
    (hi : D.inv s (r + F)) :
    D.change s s' r ∧ ∃ r', D.inv s' (r' + F) ∧ Safe D ok K p' post reg' r' := by
  cases hstep with
  | act hf =>
      have hs := h.2 s F hg hi
      rw [hf] at hs
      exact hs hg'
  | ask ha => exact h.2 s F hg hi _ ha
  | atomic hexec => exact hexec.post (h.2 s F hg hi) hg'

/-- A safe program faults as tolerated only. -/
theorem Safe.tolerated {p : Prog (S × C.Reg) Q E α} {post : α → C.Reg → Multiset T → Prop}
    {reg : C.Reg} {r F : Multiset T} {s : S} {e : E} (h : Safe D ok K p post reg r)
    (hg : D.guard s) (hi : D.inv s (r + F)) (hfault : Prog.Faults ok p (s, reg) e) :
    D.bad e := by
  cases hfault with
  | act hf =>
      have hs := h.2 s F hg hi
      rw [hf] at hs
      exact hs
  | atomic hexec => exact hexec.tolerated (h.2 s F hg hi)

/-- A safe program owns what it must hold. -/
theorem Safe.held {p : Prog (S × C.Reg) Q E α} {post : α → C.Reg → Multiset T → Prop}
    {reg : C.Reg} {r : Multiset T} (h : Safe D ok K p post reg r) : K r := by
  cases p with
  | done a => exact h.1
  | act f k => exact h.1
  | ask q k => exact h.1
  | atomic p k => exact h.1

/-! ## programs that need no tokens -/

section Neutral

variable (D ok)

/-- Whatever a thread owns, `p` keeps the discipline and the thread's tokens. -/
def Neutral (p : Prog (S × C.Reg) Q E α) : Prop :=
  ∀ reg r, Safe D ok (fun _ => True) p (fun _ _ r' => r' = r) reg r

variable {D ok}

theorem Neutral.done (a : α) : Neutral D ok (.done a : Prog (S × C.Reg) Q E α) :=
  fun _ _ => ⟨trivial, rfl⟩

/-- A neutral program in front of a safe one. -/
theorem Neutral.before {p : Prog (S × C.Reg) Q E α} (hp : Neutral D ok p)
    {f : α → Prog (S × C.Reg) Q E β} {post : β → C.Reg → Multiset T → Prop} {reg : C.Reg}
    {r : Multiset T} (hf : ∀ a reg', Safe D ok (fun _ => True) (f a) post reg' r) :
    Safe D ok (fun _ => True) (p.bind f) post reg r :=
  Safe.bind (Safe.mono (fun _ h => h) (fun a reg' r' hr => by
    subst hr
    exact hf a reg') (hp reg r))

theorem Neutral.bind {p : Prog (S × C.Reg) Q E α} {f : α → Prog (S × C.Reg) Q E β}
    (hp : Neutral D ok p) (hf : ∀ a, Neutral D ok (f a)) : Neutral D ok (p.bind f) :=
  fun _ r => hp.before fun a reg' => hf a reg' r

theorem Neutral.ite {c : Prop} [Decidable c] {p q : Prog (S × C.Reg) Q E α}
    (hp : Neutral D ok p) (hq : Neutral D ok q) : Neutral D ok (if c then p else q) := by
  split_ifs
  · exact hp
  · exact hq

end Neutral

/-! ## all threads -/

variable (D ok)

/-- Every operation is safe, from what an idle thread owns to what it owns
again. -/
def Discipline.Sound : Prop :=
  ∀ op l r, C.can op l → D.idle l r →
    Safe D ok (D.held op l) (C.prog op) (fun _ reg r' => D.idle (C.leave op l reg) r')
      (C.enter op l) r

/-- What a thread owns fits what it is doing. -/
def Thread.Owns (th : Thread C) (r : Multiset T) : Prop :=
  match th.running with
  | none => D.idle th.locals r
  | some x => Safe D ok (D.held x.op th.locals) x.rest
      (fun _ reg r' => D.idle (C.leave x.op th.locals reg) r') x.reg r

variable {ι : Type} [DecidableEq ι] [Fintype ι]

/-- The tokens `R` account for the shared state and for every thread. -/
structure Good (c : Config C ι) (R : ι → Multiset T) : Prop where
  inv : D.inv c.shared (∑ t, R t)
  owns : ∀ t, (c.thread t).Owns D ok (R t)

variable {D ok} {c c' : Config C ι} {R : ι → Multiset T}

/-- One thread's tokens apart from the others'. -/
theorem sum_eq_add (R : ι → Multiset T) (t : ι) :
    ∑ i, R i = R t + ∑ i ∈ Finset.univ.erase t, R i :=
  (Finset.add_sum_erase _ R (Finset.mem_univ t)).symm

omit [Fintype ι] in
/-- Only the thread that steps changes, and so do its tokens. -/
theorem owns_setThread {s : S} {t : ι} {th : Thread C} {r : Multiset T}
    (h : ∀ t, (c.thread t).Owns D ok (R t)) (ht : th.Owns D ok r) (i : ι) :
    (({ c with shared := s }.setThread t th).thread i).Owns D ok (Function.update R t r i) := by
  by_cases hi : i = t
  · subst hi
    simpa [Config.setThread] using ht
  · simpa [Config.setThread, hi] using h i

omit [DecidableEq ι] in
/-- A thread within an operation owns what it must hold. -/
theorem Good.held (h : Good D ok c R) {t : ι} {x : Running C}
    (hrun : (c.thread t).running = some x) : D.held x.op (c.thread t).locals (R t) := by
  have howns := h.owns t
  rw [Thread.Owns, hrun] at howns
  exact howns.held

/-- **Step lemma**: a step of any thread keeps the system good, leaves the other
threads' tokens alone, and changes the shared state only within an operation and
as the thread's own tokens allow. -/
theorem Good.step (hD : D.Sound ok) (h : Good D ok c R) {t : ι} (hstep : c.Step ok t c')
    (hg : D.guard c.shared) (hg' : D.guard c'.shared) :
    (c'.shared = c.shared ∨
      (c.thread t).running.isSome ∧ D.change c.shared c'.shared (R t)) ∧
      ∃ r, Good D ok c' (Function.update R t r) := by
  have howns := h.owns t
  cases hstep with
  | @start op hidle hcan =>
      rw [Thread.Owns, hidle] at howns
      refine ⟨.inl rfl, R t, ?_, owns_setThread h.owns (hD op _ _ hcan howns)⟩
      rw [Function.update_eq_self]
      exact h.inv
  | @act x s' reg' rest' hrun hprog =>
      rw [Thread.Owns, hrun] at howns
      have hi := h.inv
      rw [sum_eq_add R t] at hi
      obtain ⟨hc, r', hi', hsafe⟩ := howns.step hprog hg hg' hi
      refine ⟨.inr ⟨by rw [hrun]; rfl, hc⟩, r', ?_, owns_setThread h.owns hsafe⟩
      rw [Finset.sum_update_of_mem (Finset.mem_univ t), Finset.sdiff_singleton_eq_erase]
      exact hi'
  | @finish x hrun hdone =>
      rw [Thread.Owns, hrun] at howns
      simp only [hdone] at howns
      refine ⟨.inl rfl, R t, ?_, owns_setThread h.owns howns.2⟩
      rw [Function.update_eq_self]
      exact h.inv

/-- **Run lemma**: a system that starts good stays good. -/
theorem Good.run (hD : D.Sound ok) {c₀ : Config C ι} {R₀ : ι → Multiset T} (h : Good D ok c₀ R₀)
    (hg : D.guard c₀.shared) (hr : Config.Reach ok D.guard c₀ c) :
    D.guard c.shared ∧ ∃ R, Good D ok c R := by
  induction hr with
  | refl => exact ⟨hg, R₀, h⟩
  | step _ hstep hg' ih =>
      obtain ⟨hg, R, hgood⟩ := ih
      obtain ⟨-, r, hgood'⟩ := hgood.step hD hstep hg hg'
      exact ⟨hg', _, hgood'⟩

/-- In a good system threads fault as tolerated only. -/
theorem Good.tolerated (h : Good D ok c R) (hg : D.guard c.shared) {t : ι} {e : E}
    (hf : c.Faults ok t e) : D.bad e := by
  obtain ⟨x, hrun, hfault⟩ := hf
  have howns := h.owns t
  have hi := h.inv
  rw [Thread.Owns, hrun] at howns
  rw [sum_eq_add R t] at hi
  exact howns.tolerated hg hi hfault

end ServerStudy
