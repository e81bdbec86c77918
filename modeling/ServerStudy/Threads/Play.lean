import ServerStudy.Threads

/-!
# ServerStudy.Threads.Play

Running threads by a schedule, with given answers, as long as every state meets a guard.

* `Reach.play` — where a schedule leads to is reached.
-/

namespace ServerStudy

namespace Prog

variable {σ : Type} {Q : Type → Type} {E α : Type} (ok : Answers σ Q)
  (answer : ∀ β : Type, σ → Q β → β) [∀ β s (q : Q β), Decidable (ok β s q (answer β s q))]

/-- Run alone, as long as the answers can be given and nothing faults. -/
def attempt : {α : Type} → Prog σ Q E α → σ → Option (α × σ)
  | _, .done a, s => some (a, s)
  | _, .act f k, s =>
      match f s with
      | .error _ => none
      | .ok (b, s') => attempt (k b) s'
  | _, .ask q k, s => if ok _ s q (answer _ s q) then attempt (k (answer _ s q)) s else none
  | _, .atomic p k, s => (attempt p s).bind fun r => attempt (k r.1) r.2

/-- The same, as long as every action leads to a state with `guard`. -/
def pursue (guard : σ → Prop) [DecidablePred guard] : {α : Type} → Prog σ Q E α → σ → Option (α × σ)
  | _, .done a, s => some (a, s)
  | _, .act f k, s =>
      match f s with
      | .error _ => none
      | .ok (b, s') => if guard s' then pursue guard (k b) s' else none
  | _, .ask q k, s => if ok _ s q (answer _ s q) then pursue guard (k (answer _ s q)) s else none
  | _, .atomic p k, s => (attempt ok answer p s).bind fun r =>
      if guard r.2 then pursue guard (k r.1) r.2 else none

/-- The next action. -/
def next : Prog σ Q E α → σ → Option (Prog σ Q E α × σ)
  | .done _, _ => none
  | .act f k, s =>
      match f s with
      | .error _ => none
      | .ok (b, s') => some (k b, s')
  | .ask q k, s => if ok _ s q (answer _ s q) then some (k (answer _ s q), s) else none
  | .atomic p k, s => (attempt ok answer p s).map fun r => (k r.1, r.2)

/-- How the next action faults, if it is not a section. -/
def nextFault : Prog σ Q E α → σ → Option E
  | .act f _, s =>
      match f s with
      | .error e => some e
      | .ok _ => none
  | _, _ => none

variable {ok answer}

theorem exec_attempt {p : Prog σ Q E α} {s : σ} {r : α × σ}
    (h : attempt ok answer p s = some r) : Exec ok p s (.ok r) := by
  induction p generalizing s with
  | done a =>
      obtain rfl := Option.some.inj h
      exact .done a s
  | act f k ih =>
      simp only [attempt] at h
      split at h
      · cases h
      · exact .act ‹_› (ih _ h)
  | ask q k ih =>
      simp only [attempt] at h
      split_ifs at h with ha
      exact .ask ha (ih _ h)
  | atomic p k ihp ihk =>
      obtain ⟨r', hp, hk⟩ := Option.bind_eq_some_iff.mp h
      exact .atomic (ihp hp) (ihk _ hk)

theorem step_next {p p' : Prog σ Q E α} {s s' : σ} (h : next ok answer p s = some (p', s')) :
    Step ok p s p' s' := by
  cases p with
  | done a => cases h
  | act f k =>
      simp only [next] at h
      split at h
      · cases h
      · obtain ⟨rfl, rfl⟩ := Prod.mk.inj (Option.some.inj h)
        exact .act ‹_›
  | ask q k =>
      simp only [next] at h
      split_ifs at h with ha
      obtain ⟨rfl, rfl⟩ := Prod.mk.inj (Option.some.inj h)
      exact .ask ha
  | atomic p k =>
      obtain ⟨r, hp, hr⟩ := Option.map_eq_some_iff.mp h
      obtain ⟨rfl, rfl⟩ := Prod.mk.inj hr
      exact .atomic (exec_attempt hp)

omit [∀ β s (q : Q β), Decidable (ok β s q (answer β s q))] in
theorem faults_nextFault {p : Prog σ Q E α} {s : σ} {e : E} (h : p.nextFault s = some e) :
    Faults ok p s e := by
  cases p with
  | act f k =>
      simp only [nextFault] at h
      split at h
      · obtain rfl := Option.some.inj h
        exact .act ‹_›
      · cases h
  | _ => cases h

end Prog

namespace Config

variable {S L : Type} {Q : Type → Type} {E : Type} {C : Client S L Q E} {ι : Type}

/-- What a thread does next: it starts an operation, does some actions of one, ends
one, or does one as a whole. -/
inductive Move (C : Client S L Q E) where
  | start (op : C.Op)
  | acts (n : Nat)
  | finish
  | whole (op : C.Op)

variable (ok : Answers (S × C.Reg) Q) (answer : ∀ β : Type, S × C.Reg → Q β → β)
  [∀ β s (q : Q β), Decidable (ok β s q (answer β s q))] [∀ op l, Decidable (C.can op l)]
  (guard : S → Prop) [DecidablePred guard] [DecidableEq ι]

/-- Some actions of the operation in progress. -/
def acts (t : ι) : Nat → Config C ι → Option (Config C ι)
  | 0, c => some c
  | n + 1, c =>
      match (c.thread t).running with
      | none => none
      | some r => (r.rest.next ok answer (c.shared, r.reg)).bind fun x =>
          if guard x.2.1 then
            acts t n ({ c with shared := x.2.1 }.setThread t
              ⟨(c.thread t).locals, some ⟨r.op, x.2.2, x.1⟩⟩)
          else none

/-- A move of a thread, if it can be made. -/
def move (t : ι) (c : Config C ι) : Move C → Option (Config C ι)
  | .start op =>
      match (c.thread t).running with
      | some _ => none
      | none =>
        if C.can op (c.thread t).locals then
          some (c.setThread t
            ⟨(c.thread t).locals, some ⟨op, C.enter op (c.thread t).locals, C.prog op⟩⟩)
        else none
  | .acts n => acts ok answer guard t n c
  | .finish =>
      match (c.thread t).running with
      | some ⟨op, reg, .done ()⟩ => some (c.setThread t ⟨C.leave op (c.thread t).locals reg, none⟩)
      | _ => none
  | .whole op =>
      match (c.thread t).running with
      | some _ => none
      | none =>
        if C.can op (c.thread t).locals then
          ((C.prog op).pursue ok answer (fun x => guard x.1)
            (c.shared, C.enter op (c.thread t).locals)).map fun r =>
              { c with shared := r.2.1 }.setThread t ⟨C.leave op (c.thread t).locals r.2.2, none⟩
        else none

/-- Make the moves of a schedule. -/
def play : List (ι × Move C) → Config C ι → Option (Config C ι)
  | [], c => some c
  | (t, m) :: moves, c => (move ok answer guard t c m).bind (play moves)

variable {ok answer guard} {c₀ c c' : Config C ι}

omit [∀ op l, Decidable (C.can op l)] in
theorem Reach.acts {t : ι} {n : Nat} (hc : Reach ok guard c₀ c) (hg : guard c.shared)
    (h : Config.acts ok answer guard t n c = some c') :
    Reach ok guard c₀ c' ∧ guard c'.shared := by
  induction n generalizing c with
  | zero =>
      obtain rfl := Option.some.inj h
      exact ⟨hc, hg⟩
  | succ n ih =>
      simp only [Config.acts] at h
      split at h
      · cases h
      · rename_i r hrun
        obtain ⟨⟨rest', s', reg'⟩, hnext, hrest⟩ := Option.bind_eq_some_iff.mp h
        split_ifs at hrest with hg'
        exact ih (.step hc (.act hrun (Prog.step_next hnext)) hg') hg' hrest

omit [∀ op l, Decidable (C.can op l)] in
/-- A thread may run part of its operation without being interrupted. -/
theorem Reach.pursue {t : ι} {op : C.Op} {α : Type} {p : Prog (S × C.Reg) Q E α}
    {k : α → Prog (S × C.Reg) Q E Unit} {a : α} {reg reg' : C.Reg} {s' : S} (c : Config C ι)
    (hc : Reach ok guard c₀ c) (hg : guard c.shared)
    (hrun : (c.thread t).running = some ⟨op, reg, p.bind k⟩)
    (h : p.pursue ok answer (fun x => guard x.1) (c.shared, reg) = some (a, s', reg')) :
    Reach ok guard c₀ ({ c with shared := s' }.setThread t
      ⟨(c.thread t).locals, some ⟨op, reg', k a⟩⟩) ∧ guard s' := by
  induction p generalizing c reg with
  | done b =>
      obtain ⟨rfl, hs⟩ := Prod.mk.inj (Option.some.inj h)
      obtain ⟨rfl, rfl⟩ := Prod.mk.inj hs
      have hthread : Function.update c.thread t ⟨(c.thread t).locals, (c.thread t).running⟩ =
          c.thread := Function.update_eq_self t c.thread
      rw [hrun] at hthread
      simp only [setThread]
      rw [← Prog.done_bind b k, hthread]
      exact ⟨hc, hg⟩
  | act f k' ih =>
      simp only [Prog.pursue] at h
      split at h
      · cases h
      · rename_i b s₂ hf
        split_ifs at h with hg₂
        have hstep := Reach.step hc (.act hrun (.act hf)) hg₂
        have hend := ih b (k := k) _ hstep hg₂ (by simp [setThread]) h
        rw [setThread_setThread] at hend
        simpa [setThread] using hend
  | ask q k' ih =>
      simp only [Prog.pursue] at h
      split_ifs at h with ha
      have hstep := Reach.step hc (.act hrun (.ask ha)) hg
      have hend := ih _ (k := k) _ hstep hg (by simp [setThread]) h
      rw [setThread_setThread] at hend
      simpa [setThread] using hend
  | atomic p k' _ ih =>
      obtain ⟨⟨b, s₂⟩, hp, hrest⟩ := Option.bind_eq_some_iff.mp h
      split_ifs at hrest with hg₂
      have hstep := Reach.step hc (.act hrun (.atomic (Prog.exec_attempt hp))) hg₂
      have hend := ih b (k := k) _ hstep hg₂ (by simp [setThread]) hrest
      rw [setThread_setThread] at hend
      simpa [setThread] using hend

theorem Reach.move {t : ι} {m : Move C} (hc : Reach ok guard c₀ c) (hg : guard c.shared)
    (h : Config.move ok answer guard t c m = some c') :
    Reach ok guard c₀ c' ∧ guard c'.shared := by
  cases m with
  | start op =>
      simp only [Config.move] at h
      split at h
      · cases h
      · split_ifs at h with hcan
        obtain rfl := Option.some.inj h
        exact ⟨.step hc (.start ‹_› hcan) hg, hg⟩
  | acts n => exact hc.acts hg h
  | finish =>
      simp only [Config.move] at h
      split at h
      · obtain rfl := Option.some.inj h
        exact ⟨.step hc (.finish ‹_› rfl) hg, hg⟩
      · cases h
  | whole op =>
      simp only [Config.move] at h
      split at h
      · cases h
      · split_ifs at h with hcan
        obtain ⟨⟨⟨⟩, s', reg'⟩, hrun, rfl⟩ := Option.map_eq_some_iff.mp h
        have hstart := Reach.step hc (.start ‹_› hcan) hg
        obtain ⟨hend, hg'⟩ := Reach.pursue (t := t) (k := .done) _ hstart hg
          (by simp [setThread, Prog.bind_done]; rfl) hrun
        have hfinish := Reach.step hend (.finish (t := t) (r := ⟨op, reg', .done ()⟩)
          (by simp [setThread]) rfl) hg'
        refine ⟨?_, hg'⟩
        simpa [setThread] using hfinish

/-- **Where a schedule leads to is reached.** -/
theorem Reach.play {moves : List (ι × Move C)} (hc : Reach ok guard c₀ c) (hg : guard c.shared)
    (h : Config.play ok answer guard moves c = some c') :
    Reach ok guard c₀ c' ∧ guard c'.shared := by
  induction moves generalizing c with
  | nil =>
      obtain rfl := Option.some.inj h
      exact ⟨hc, hg⟩
  | cons m moves ih =>
      obtain ⟨c₁, hmove, hrest⟩ := Option.bind_eq_some_iff.mp h
      obtain ⟨hc₁, hg₁⟩ := hc.move hg hmove
      exact ih hc₁ hg₁ hrest

end Config

end ServerStudy
