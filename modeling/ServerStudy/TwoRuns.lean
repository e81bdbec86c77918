import ServerStudy.Prog

/-!
# ServerStudy.TwoRuns

One program run twice, from states that differ in one part: `upd b s` is `s` with
`b` for that part.

* `Blind` — the program does the same whatever is there, and may only clear it;
* `Lens.Apart`, `Lens.Within` — where a part of the state lies to that part;
* `Twin` — from this very state, and with this very `b`, it does the same.
-/

namespace ServerStudy

namespace Prog

variable {σ : Type} {Q : Type → Type} {E α β B : Type}

/-- What a run ends in, with `b` for the part. -/
def replaced (upd : B → σ → σ) (b : B) (r : Except E (α × σ)) : Except E (α × σ) :=
  r.map fun x => (x.1, upd b x.2)

/-- Every action returns the same and does the same whatever the part is. -/
def Blind (ok : Answers σ Q) (upd : B → σ → σ) : {α : Type} → Prog σ Q E α → Prop
  | _, .done _ => True
  | _, .act f k => (∀ s b, ∃ b', f (upd b s) = replaced upd b' (f s)) ∧ ∀ x, Blind ok upd (k x)
  | _, .ask q k => (∀ s b a, ok _ s q a → ok _ (upd b s) q a) ∧ ∀ a, Blind ok upd (k a)
  | _, .atomic p k => Blind ok upd p ∧ ∀ x, Blind ok upd (k x)

variable {ok : Answers σ Q} {upd : B → σ → σ}

/-- **A run is a run whatever the part is.** -/
theorem Blind.exec {p : Prog σ Q E α} {s : σ} {r : Except E (α × σ)} (hp : p.Blind ok upd)
    (h : Exec ok p s r) (b : B) : ∃ b', Exec ok p (upd b s) (replaced upd b' r) := by
  induction h generalizing b with
  | done a s => exact ⟨b, .done a _⟩
  | @fault _ _ f k s e hf =>
      obtain ⟨b', hb'⟩ := hp.1 s b
      rw [hf] at hb'
      exact ⟨b', .fault hb'⟩
  | @act _ _ f k s s' x r hf _ ih =>
      obtain ⟨b', hb'⟩ := hp.1 s b
      rw [hf] at hb'
      obtain ⟨b'', hb''⟩ := ih (hp.2 x) b'
      exact ⟨b'', .act hb' hb''⟩
  | @ask _ _ q k s a r ha _ ih =>
      obtain ⟨b', hb'⟩ := ih (hp.2 a) b
      exact ⟨b', .ask (hp.1 s b a ha) hb'⟩
  | atomicFault _ ih =>
      obtain ⟨b', hb'⟩ := ih hp.1 b
      exact ⟨b', .atomicFault hb'⟩
  | @atomic _ _ p k s s' x r _ _ ihp ihk =>
      obtain ⟨b', hb'⟩ := ihp hp.1 b
      obtain ⟨b'', hb''⟩ := ihk (hp.2 x) b'
      exact ⟨b'', .atomic hb' hb''⟩

/-- A program of blind parts is blind. -/
theorem Blind.bind {p : Prog σ Q E α} {f : α → Prog σ Q E β} (hp : p.Blind ok upd)
    (hf : ∀ a, (f a).Blind ok upd) : (p.bind f).Blind ok upd := by
  induction p with
  | done a => exact hf a
  | act g k ih => exact ⟨hp.1, fun x => ih x (hp.2 x) hf⟩
  | ask q k ih => exact ⟨hp.1, fun a => ih a (hp.2 a) hf⟩
  | atomic p k _ ih => exact ⟨hp.1, fun x => ih x (hp.2 x) hf⟩

/-- The condition is the same in both runs, since it is computed from what was returned. -/
theorem Blind.ite {c : Prop} [Decidable c] {p q : Prog σ Q E α} (hp : p.Blind ok upd)
    (hq : q.Blind ok upd) : (if c then p else q).Blind ok upd := by
  split_ifs
  · exact hp
  · exact hq

/-- A section is blind if what is in it is. -/
theorem Blind.atomically {p : Prog σ Q E α} (hp : p.Blind ok upd) :
    (Prog.atomically p).Blind ok upd := ⟨hp, fun _ => trivial⟩

/-- A result that is known already. -/
theorem Blind.lift (x : Except E α) : (Prog.lift x : Prog σ Q E α).Blind ok upd := by
  refine ⟨fun s b => ⟨b, ?_⟩, fun _ => trivial⟩
  cases x <;> rfl

/-- Both runs fault. -/
theorem Blind.fault [Nonempty B] (e : E) : (Prog.fault e : Prog σ Q E α).Blind ok upd :=
  ⟨fun _ b => ⟨b, rfl⟩, fun _ => trivial⟩

/-- An action that keeps the part, or puts something else for it. -/
theorem Blind.modify {f : σ → σ} (hf : ∀ s b, ∃ b', f (upd b s) = upd b' (f s)) :
    (Prog.modify f : Prog σ Q E Unit).Blind ok upd := by
  refine ⟨fun s b => ?_, fun _ => trivial⟩
  obtain ⟨b', hb'⟩ := hf s b
  exact ⟨b', congrArg (fun s => Except.ok ((), s)) hb'⟩

/-- The environment may answer the same whatever the part is. -/
theorem Blind.query {q : Q α} (hq : ∀ s b a, ok _ s q a → ok _ (upd b s) q a) :
    (Prog.query q : Prog σ Q E α).Blind ok upd := ⟨hq, fun _ => trivial⟩

/-! ## from one state -/

/-- From `s`, the program does the same with `b` for the part. -/
def Twin (ok : Answers σ Q) (upd : B → σ → σ) (b : B) (p : Prog σ Q E α) (s : σ) : Prop :=
  ∀ r, Exec ok p s r → ∃ b', Exec ok p (upd b s) (replaced upd b' r)

/-- What is blind does the same from every state. -/
theorem Blind.twin {p : Prog σ Q E α} (hp : p.Blind ok upd) (b : B) (s : σ) :
    Twin ok upd b p s := fun _ h => hp.exec h b

/-- Something is read that is the same. -/
theorem Twin.view {l : Lens σ β} {f : β → Except E γ} {k : γ → Prog σ Q E α} {b : B} {s : σ}
    (hf : f (l.get (upd b s)) = f (l.get s)) (hk : ∀ x, f (l.get s) = .ok x → Twin ok upd b (k x) s) :
    Twin ok upd b ((l.view f).bind k) s := by
  intro r h
  cases hx : f (l.get s) with
  | error e =>
      have herr : ∀ s', f (l.get s') = .error e →
          Exec ok ((l.view f).bind k : Prog σ Q E α) s' (.error e) := fun s' hs' =>
        .fault (by simp only [hs', Except.map])
      cases h with
      | fault hfault =>
          simp only [hx, Except.map, Except.error.injEq] at hfault
          subst hfault
          exact ⟨b, herr _ (hf.trans hx)⟩
      | act hact _ =>
          simp only [hx, Except.map] at hact
          cases hact
  | ok x =>
      cases h with
      | fault hfault =>
          simp only [hx, Except.map] at hfault
          cases hfault
      | act hact hrest =>
          simp only [hx, Except.map, Except.ok.injEq, Prod.mk.injEq] at hact
          obtain ⟨rfl, rfl⟩ := hact
          obtain ⟨b', hb'⟩ := hk x hx _ hrest
          have hact : (f (l.get (upd b s))).map (fun y => (y, upd b s)) = .ok (x, upd b s) := by
            rw [hf, hx]
            rfl
          exact ⟨b', Exec.act (k := fun y => (done y).bind k) hact hb'⟩

/-- The same for a read that cannot fault. -/
theorem Twin.read {l : Lens σ β} {f : β → γ} {k : γ → Prog σ Q E α} {b : B} {s : σ}
    (hf : f (l.get (upd b s)) = f (l.get s)) (hk : Twin ok upd b (k (f (l.get s))) s) :
    Twin ok upd b ((l.read f).bind k) s := by
  intro r h
  cases h with
  | fault hfault => cases hfault
  | act hact hrest =>
      cases hact
      obtain ⟨b', hb'⟩ := hk _ hrest
      have hact : (Except.ok (f (l.get (upd b s)), upd b s) : Except E (γ × σ)) =
          .ok (f (l.get s), upd b s) := by rw [hf]
      exact ⟨b', Exec.act (k := fun y => (done y).bind k) hact hb'⟩

/-! ## reading, in one run -/

variable {answer : ∀ β : Type, σ → Q β → β}

/-- A read that succeeds. -/
theorem run_view_ok {l : Lens σ β} {f : β → Except E γ} {k : γ → Prog σ Q E α} {s : σ} {x : γ}
    (hf : f (l.get s) = .ok x) : run answer ((l.view f).bind k) s = run answer (k x) s := by
  simp only [Lens.view, update, act_bind, run, hf, Except.map, done_bind]

/-- A read that faults. -/
theorem run_view_error {l : Lens σ β} {f : β → Except E γ} {k : γ → Prog σ Q E α} {s : σ} {e : E}
    (hf : f (l.get s) = .error e) : run answer ((l.view f).bind k) s = .error e := by
  simp only [Lens.view, update, act_bind, run, hf, Except.map]

/-- A read goes on with what it found. -/
theorem run_read (l : Lens σ β) (f : β → γ) (k : γ → Prog σ Q E α) (s : σ) :
    run answer ((l.read f).bind k) s = run answer (k (f (l.get s))) s := rfl

/-- Something computed without faulting. -/
theorem run_lift_ok (x : γ) (k : γ → Prog σ Q E α) (s : σ) :
    run answer ((lift (.ok x)).bind k) s = run answer (k x) s := rfl

end Prog

/-! ## parts of the state -/

namespace Lens

variable {σ : Type} {Q : Type → Type} {E α β γ B : Type} {ok : Answers σ Q} {upd : B → σ → σ}
  {upd' : B → α → α} {l : Lens σ α}

/-- The part `l` and the replaced one have nothing in common. -/
structure Apart (upd : B → σ → σ) (l : Lens σ α) : Prop where
  get : ∀ b s, l.get (upd b s) = l.get s
  set : ∀ b s a, l.set a (upd b s) = upd b (l.set a s)

/-- The replaced part lies within `l`. -/
structure Within (upd : B → σ → σ) (upd' : B → α → α) (l : Lens σ α) : Prop where
  get : ∀ b s, l.get (upd b s) = upd' b (l.get s)
  set : ∀ b b' s a, l.set (upd' b a) (upd b' s) = upd b (l.set a s)

/-- The part within `m` within `l` is within `l.comp m`. -/
theorem Within.comp {upd'' : B → β → β} {m : Lens α β} (hl : l.Within upd upd')
    (hm : m.Within upd' upd'') : (l.comp m).Within upd upd'' where
  get b s := by simp only [Lens.comp, hl.get, hm.get]
  set b b' s a := by simp only [Lens.comp, hl.get, hm.set, hl.set]

/-- Another part of `l` than the replaced one. -/
theorem Within.comp_apart {m : Lens α β} (hl : l.Within upd upd') (hm : m.Apart upd') :
    (l.comp m).Apart upd where
  get b s := by simp only [Lens.comp, hl.get, hm.get]
  set b s a := by simp only [Lens.comp, hl.get, hm.set, hl.set]

/-- A part of what is apart is apart. -/
theorem Apart.comp {m : Lens α β} (hl : l.Apart upd) : (l.comp m).Apart upd where
  get b s := by simp only [Lens.comp, hl.get]
  set b s a := by simp only [Lens.comp, hl.get, hl.set]

section Apart

variable (hl : l.Apart upd)
include hl

/-- An action on a part apart from the replaced one is blind. -/
theorem Apart.update (f : α → Except E (β × α)) :
    (l.update f : Prog σ Q E β).Blind ok upd := by
  refine ⟨fun s b => ⟨b, ?_⟩, fun _ => trivial⟩
  simp only [hl.get]
  cases f (l.get s) with
  | error e => rfl
  | ok x => simp only [Except.map, Prog.replaced, hl.set]

/-- So is a read of it. -/
theorem Apart.view (f : α → Except E β) : (l.view f : Prog σ Q E β).Blind ok upd := by
  refine ⟨fun s b => ⟨b, ?_⟩, fun _ => trivial⟩
  simp only [hl.get]
  cases f (l.get s) <;> rfl

/-- And one that cannot fault. -/
theorem Apart.read (f : α → β) : (l.read f : Prog σ Q E β).Blind ok upd :=
  ⟨fun s b => ⟨b, by simp only [hl.get]; rfl⟩, fun _ => trivial⟩

/-- And a write. -/
theorem Apart.modify (f : α → α) : (l.modify f : Prog σ Q E Unit).Blind ok upd :=
  Prog.Blind.modify fun s b => ⟨b, by rw [hl.get, hl.set]⟩

end Apart

section Within

variable (hl : l.Within upd upd')
include hl

/-- An action on a part with the replaced one in it is blind if it is so to that part. -/
theorem Within.update {f : α → Except E (β × α)}
    (hf : ∀ a b, ∃ b', f (upd' b a) = Prog.replaced upd' b' (f a)) :
    (l.update f : Prog σ Q E β).Blind ok upd := by
  refine ⟨fun s b => ?_, fun _ => trivial⟩
  obtain ⟨b', hb'⟩ := hf (l.get s) b
  refine ⟨b', ?_⟩
  simp only [hl.get, hb']
  cases f (l.get s) with
  | error e => rfl
  | ok x => simp only [Except.map, Prog.replaced, hl.set]

/-- A read of it must not depend on the replaced one. -/
theorem Within.view {f : α → Except E β} (hf : ∀ a b, f (upd' b a) = f a) :
    (l.view f : Prog σ Q E β).Blind ok upd := by
  refine ⟨fun s b => ⟨b, ?_⟩, fun _ => trivial⟩
  simp only [hl.get, hf]
  cases f (l.get s) <;> rfl

/-- Nor a read that cannot fault. -/
theorem Within.read {f : α → β} (hf : ∀ a b, f (upd' b a) = f a) :
    (l.read f : Prog σ Q E β).Blind ok upd :=
  ⟨fun s b => ⟨b, by simp only [hl.get, hf]; rfl⟩, fun _ => trivial⟩

/-- A write must keep the replaced one, or put something else for it. -/
theorem Within.modify {f : α → α} (hf : ∀ a b, ∃ b', f (upd' b a) = upd' b' (f a)) :
    (l.modify f : Prog σ Q E Unit).Blind ok upd :=
  Prog.Blind.modify fun s b => by
    obtain ⟨b', hb'⟩ := hf (l.get s) b
    exact ⟨b', by rw [hl.get, hb', hl.set]⟩

end Within

end Lens

end ServerStudy
