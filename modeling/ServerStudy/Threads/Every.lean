import ServerStudy.Threads

/-!
# ServerStudy.Threads.Every

Programs whose actions all do as `Prog.Every` says, under a discipline.

* `Safe.also` — a discipline may have one more invariant, when every action keeps it;
* `Prog.Every.safe` — a program whose actions all keep a discipline is safe;
* `Discipline.plain_sound` — without tokens, an invariant that every action keeps.
-/

namespace ServerStudy

variable {S L : Type} {Q : Type → Type} {E T : Type} {C : Client S L Q E}
  {ok : Answers (S × C.Reg) Q} {G : S × C.Reg → S × C.Reg → Prop} {α : Type}

/-! ## one more invariant -/

section Also

variable {prog' : C.Op → Prog (S × C.Reg) Q E Unit}

/-- The discipline with one more invariant, of threads that run other programs. -/
def Discipline.also (D : Discipline C T) (J : S → Prop)
    (prog' : C.Op → Prog (S × C.Reg) Q E Unit) : Discipline { C with prog := prog' } T where
  guard := D.guard
  bad := D.bad
  inv s R := D.inv s R ∧ J s
  idle := D.idle
  held := D.held
  change := D.change

/-- A safe program is safe with the invariant that its actions keep. -/
theorem Safe.also {D : Discipline C T} {J : S → Prop}
    (hJ : ∀ x x' : S × C.Reg, ∀ r F r', D.guard x'.1 → D.inv x.1 (r + F) → J x.1 → G x x' →
      D.change x.1 x'.1 r → D.inv x'.1 (r' + F) → J x'.1)
    {K : Multiset T → Prop} {p : Prog (S × C.Reg) Q E α}
    {post : α → C.Reg → Multiset T → Prop} {reg : C.Reg} {r : Multiset T} (hp : p.Every ok G)
    (h : Safe D ok K p post reg r) : Safe (D.also J prog') ok K p post reg r := by
  induction p generalizing reg r with
  | done a => exact h
  | act f k ih =>
      refine ⟨h.1, fun s F hg hi => ?_⟩
      have hf := h.2 s F hg hi.1
      have hG := hp.1 (s, reg)
      revert hf hG
      cases f (s, reg) with
      | error e => exact fun hf _ => hf
      | ok x =>
          intro hf hG hg'
          obtain ⟨hc, r', hi', hk⟩ := hf hg'
          exact ⟨hc, r', ⟨hi', hJ _ _ r F r' hg' hi.1 hi.2 (hG _ _ rfl) hc hi'⟩, ih _ (hp.2 _) hk⟩
  | ask q k ih =>
      refine ⟨h.1, fun s F hg hi a ha => ?_⟩
      obtain ⟨hc, r', hi', hk⟩ := h.2 s F hg hi.1 a ha
      exact ⟨hc, r', ⟨hi', hi.2⟩, ih _ (hp a) hk⟩
  | atomic p k _ ih =>
      refine ⟨h.1, fun s F hg hi => ?_⟩
      refine Prog.wp_mono (fun b x hx hg' => ?_) (Prog.wp_and (h.2 s F hg hi.1) (hp.1 (s, reg)))
      obtain ⟨hc, r', hi', hk⟩ := hx.1 hg'
      exact ⟨hc, r', ⟨hi', hJ _ _ r F r' hg' hi.1 hi.2 hx.2 hc hi'⟩, ih _ (hp.2 _) hk⟩

end Also

/-! ## programs that move no tokens -/

/-- What the actions do to the registers, the program does, and the thread keeps its tokens. -/
theorem Prog.Every.safe {D : Discipline C T} {H : C.Reg → C.Reg → Prop} {r : Multiset T}
    (hbad : ∀ e, D.bad e) (hrefl : ∀ s, D.change s s r)
    (hH : ∀ reg, H reg reg) (hH' : ∀ reg reg' reg'', H reg reg' → H reg' reg'' → H reg reg'')
    (hG : ∀ x x' F, D.guard x.1 → D.guard x'.1 → D.inv x.1 (r + F) → G x x' →
      D.inv x'.1 (r + F) ∧ D.change x.1 x'.1 r ∧ H x.2 x'.2)
    {p : Prog (S × C.Reg) Q E α} (hp : p.Every ok G) (reg : C.Reg) :
    Safe D ok (fun _ => True) p (fun _ reg' r' => r' = r ∧ H reg reg') reg r := by
  induction p generalizing reg with
  | done a => exact ⟨trivial, rfl, hH reg⟩
  | act f k ih =>
      refine ⟨trivial, fun s F hg hi => ?_⟩
      have hf := hp.1 (s, reg)
      revert hf
      cases f (s, reg) with
      | error e => exact fun _ => hbad e
      | ok x =>
          intro hf hg'
          obtain ⟨hi', hc, hreg⟩ := hG (s, reg) _ F hg hg' hi (hf _ _ rfl)
          exact ⟨hc, r, hi', (ih _ (hp.2 _) _).mono (fun _ h => h) fun _ reg' _ hr =>
            ⟨hr.1, hH' _ _ _ hreg hr.2⟩⟩
  | ask q k ih => exact ⟨trivial, fun s F _ hi a _ => ⟨hrefl s, r, hi, ih _ (hp a) reg⟩⟩
  | atomic p k _ ih =>
      refine ⟨trivial, fun s F hg hi => ?_⟩
      refine Prog.wp_mono (fun b x hx hg' => ?_) (Prog.wp_bad (fun e _ => hbad e) (hp.1 (s, reg)))
      obtain ⟨hi', hc, hreg⟩ := hG (s, reg) _ F hg hg' hi hx
      exact ⟨hc, r, hi', (ih _ (hp.2 _) _).mono (fun _ h => h) fun _ reg' _ hr =>
        ⟨hr.1, hH' _ _ _ hreg hr.2⟩⟩

/-! ## without tokens -/

/-- Threads that own nothing: an invariant, and what an action may change. -/
def Discipline.plain (C : Client S L Q E) (J : S → Prop) (change : S → S → Prop) :
    Discipline C Unit where
  guard _ := True
  bad _ := True
  inv s _ := J s
  idle _ _ := True
  held _ _ _ := True
  change s s' _ := change s s'

variable {J : S → Prop} {change : S → S → Prop}

/-- Whatever the threads do, the invariant is kept. -/
theorem Discipline.plain_sound (hrefl : ∀ s, change s s)
    (hG : ∀ x x', J x.1 → G x x' → J x'.1 ∧ change x.1 x'.1)
    (hprog : ∀ op, (C.prog op).Every ok G) : (Discipline.plain C J change).Sound ok :=
  fun op _ _ _ _ => Safe.mono (fun _ h => h) (fun _ _ _ _ => trivial)
    (Prog.Every.safe (D := .plain C J change) (H := fun _ _ => True) (fun _ => trivial) hrefl
      (fun _ => trivial) (fun _ _ _ _ _ => trivial)
      (fun x x' _ _ _ hi hx => ⟨(hG x x' hi hx).1, (hG x x' hi hx).2, trivial⟩) (hprog op) _)

/-- A run is a run where less is assumed of its states. -/
theorem Config.Reach.weaken {ι : Type} [DecidableEq ι] {guard guard' : S → Prop}
    (h : ∀ s, guard s → guard' s) {c₀ c : Config C ι} (hr : Config.Reach ok guard c₀ c) :
    Config.Reach ok guard' c₀ c := by
  induction hr with
  | refl => exact .refl
  | step _ hstep hg ih => exact .step ih hstep (h _ hg)

end ServerStudy
