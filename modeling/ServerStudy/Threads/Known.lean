import ServerStudy.Threads.Every

/-!
# ServerStudy.Threads.Known

Threads that keep in mind what they saw.

Whichever thread acts, the shared state goes on by a relation `A`.  A fact that `A`
leaves true may be kept from the action that found it on: the tokens are the facts
that threads keep.

* `Safe.learn`, `Safe.learn_update` — an action may add what it found;
* `Prog.Every.knowing` — a program whose actions go on by `A` forgets nothing.
-/

namespace ServerStudy

variable {S L : Type} {Q : Type → Type} {E : Type} {C : Client S L Q E}
  {ok : Answers (S × C.Reg) Q} {J : S → Prop} {A : S → S → Prop}

/-- A fact that stays true as the state goes on. -/
structure Lasting (A : S → S → Prop) where
  holds : S → Prop
  lasts : ∀ {s s' : S}, A s s' → holds s → holds s'

/-- Threads that own what they know, of a state with the invariant `J`. -/
def Discipline.knowing (C : Client S L Q E) (J : S → Prop) (A : S → S → Prop) :
    Discipline C (Lasting A) where
  guard _ := True
  bad _ := True
  inv s R := J s ∧ ∀ f ∈ R, f.holds s
  idle _ _ := True
  held _ _ _ := True
  change _ _ _ := True

/-- What follows from the facts that a thread keeps. -/
def Knows (r : Multiset (Lasting A)) (φ : S → Prop) : Prop := ∀ s, (∀ f ∈ r, f.holds s) → φ s

variable {r r' F : Multiset (Lasting A)} {φ ψ : S → Prop}

theorem Knows.imp (h : Knows r φ) (hφ : ∀ s, φ s → ψ s) : Knows r ψ := fun s hs => hφ s (h s hs)

/-- More facts, more that follows. -/
theorem Knows.mono (h : Knows r φ) (hr : r ≤ r') : Knows r' φ :=
  fun s hs => h s fun f hf => hs f (Multiset.mem_of_le hr hf)

/-- A fact that was found is known. -/
theorem knows_cons (f : Lasting A) : Knows (f ::ₘ r) f.holds :=
  fun _ hs => hs f (Multiset.mem_cons_self f r)

/-- Facts last, and new ones may be added. -/
theorem inv_learn {s s' : S} (h : (Discipline.knowing C J A).inv s (r + F)) (hJ : J s')
    (hA : A s s') (hnew : ∀ f ∈ r', f ∈ r ∨ f.holds s') :
    (Discipline.knowing C J A).inv s' (r' + F) := by
  refine ⟨hJ, fun f hf => ?_⟩
  rcases Multiset.mem_add.mp hf with hf | hf
  · exact (hnew f hf).elim (fun hr => f.lasts hA (h.2 f (Multiset.mem_add.mpr (.inl hr)))) id
  · exact f.lasts hA (h.2 f (Multiset.mem_add.mpr (.inr hf)))

section Learn

variable {β : Type} {post : β → C.Reg → Multiset (Lasting A) → Prop} {reg : C.Reg}

/-- What an action that uses what is known has to lead to. -/
def Learns (J : S → Prop) (s : S) (post : β → C.Reg → Multiset (Lasting A) → Prop)
    (r : Multiset (Lasting A)) (b : β) (x : S × C.Reg) : Prop :=
  J x.1 ∧ A s x.1 ∧ ∃ r', (∀ f ∈ r', f ∈ r ∨ f.holds x.1) ∧ post b x.2 r'

/-- Nothing was found. -/
theorem Learns.nothing {s : S} {b : β} {x : S × C.Reg} (hJ : J x.1) (hA : A s x.1)
    (hpost : post b x.2 r) : Learns J s post r b x :=
  ⟨hJ, hA, r, fun _ hf => .inl hf, hpost⟩

/-- A fact was found. -/
theorem Learns.one {s : S} {b : β} {x : S × C.Reg} (hJ : J x.1) (hA : A s x.1) {f : Lasting A}
    (hf : f.holds x.1) (hpost : post b x.2 (f ::ₘ r)) : Learns J s post r b x :=
  ⟨hJ, hA, f ::ₘ r, fun _ hg => (Multiset.mem_cons.mp hg).elim (fun he => .inr (he ▸ hf)) .inl,
    hpost⟩

/-- A section may use what is known and add what it found. -/
theorem Safe.learn {p : Prog (S × C.Reg) Q E β} (h : ∀ s, J s → (∀ f ∈ r, f.holds s) →
      Prog.wp ok (fun _ => True) p (Learns J s post r) (s, reg)) :
    Safe (.knowing C J A) ok (fun _ => True) (Prog.atomically p) post reg r :=
  .atomically trivial fun s F _ hi => Prog.wp_mono (fun b x hx _ => by
    obtain ⟨hJ, hA, r', hnew, hpost⟩ := hx
    exact ⟨trivial, r', inv_learn hi hJ hA hnew, trivial, hpost⟩)
    (h s hi.1 fun f hf => hi.2 f (Multiset.mem_add.mpr (.inl hf)))

/-- And so may a single action. -/
theorem Safe.learn_update {f : S × C.Reg → Except E (β × (S × C.Reg))}
    (h : ∀ s, J s → (∀ f ∈ r, f.holds s) →
      Prog.wp ok (fun _ => True) (Prog.update f) (Learns J s post r) (s, reg)) :
    Safe (.knowing C J A) ok (fun _ => True) (Prog.update f) post reg r :=
  .action trivial fun s F _ hi => Prog.wp_mono (fun b x hx _ => by
    obtain ⟨hJ, hA, r', hnew, hpost⟩ := hx
    exact ⟨trivial, r', inv_learn hi hJ hA hnew, trivial, hpost⟩)
    (h s hi.1 fun f hf => hi.2 f (Multiset.mem_add.mpr (.inl hf)))

end Learn

/-- A program whose actions go on by `A` forgets nothing; `H` is what they do to the registers. -/
theorem Prog.Every.knowing {α : Type} {G : S × C.Reg → S × C.Reg → Prop} {H : C.Reg → C.Reg → Prop}
    (hH : ∀ reg, H reg reg) (hH' : ∀ reg reg' reg'', H reg reg' → H reg' reg'' → H reg reg'')
    (hG : ∀ x x', J x.1 → G x x' → J x'.1 ∧ A x.1 x'.1 ∧ H x.2 x'.2)
    {p : Prog (S × C.Reg) Q E α} (hp : p.Every ok G) (reg : C.Reg) :
    Safe (.knowing C J A) ok (fun _ => True) p (fun _ reg' r' => r' = r ∧ H reg reg') reg r :=
  hp.safe (fun _ => trivial) (fun _ => trivial) hH hH' (fun x x' F _ _ hi hx => by
    obtain ⟨hJ, hA, hreg⟩ := hG x x' hi.1 hx
    exact ⟨inv_learn hi hJ hA fun _ hf => .inl hf, trivial, hreg⟩) reg

end ServerStudy
