import Mathlib.Data.Fintype.Basic
import Mathlib.Data.Finset.Card
import ServerStudy.SparseSet.Table

/-!
# ServerStudy.SparseSet.Lifetime

What becomes of a handle over a run of calls.

* `lifetime` — a handle is valid until the first `Push` of its slot, and again
  after every `2 ^ 32`th;
* `exclusive` — while no handed-out handle is put back in state 0 without
  `Push`, `Pop` hands out none twice;
* `harmless_iff` — which mutators refuse a handle that is not valid.
-/

namespace ServerStudy

namespace SparseSet

variable {N K : Nat} {ok : SparseSet N K → Log → Op → Prop} {s s' : SparseSet N K} {log : Log}

/-- A call on a reachable state steps the table. -/
theorem Reachable.tableStep (hN : N < 2 ^ 32) (hK : 0 < K) (hs : Reachable s) {op : Op} {r : Reply}
    (hop : s.apply op = some (r, s')) : Table.Step K s.table op r s'.table := by
  obtain ⟨b, hr⟩ := hs.repr hN hK
  obtain ⟨r', s₁, hop', -, hstep, -⟩ := hr.apply_spec hN hK op
  rw [hop', Option.some.injEq, Prod.mk.injEq] at hop
  rw [← hop.1, ← hop.2]
  exact hstep

/-! ## generations -/

/-- The call was a `Push` of the slot, and was accepted. -/
def pushed (w : Fin N) : Op × Reply → Bool
  | (.push h, .flag true) => (whoOf h).toNat = w
  | _ => false

/-- The accepted `Push`es of a slot. -/
def pushes (w : Fin N) (log : Log) : Nat := log.countP (pushed w)

/-- A slot's generation advances with an accepted `Push` of the slot, and with
nothing else. -/
theorem Table.Step.gen (hN : N < 2 ^ 32) {t t' : Table N} {op : Op} {r : Reply}
    (h : Table.Step K t op r t') (v : Fin N) :
    (t' v).2 = (t v).2 + if pushed v (op, r) then 1 else 0 := by
  have hwho : ∀ w, (whoOf (t.handle w)).toNat = w := fun w => by
    rw [Table.handle, whoOf_handleOf, toNat_ofFin hN]
  cases op with
  | moveToState h' x =>
      have hno : pushed v (.moveToState h' x, r) = false := rfl
      rw [hno, if_neg Bool.false_ne_true, UInt32.add_zero]
      rcases h with ⟨w, -, -, -, rfl⟩ | ⟨-, -, rfl⟩
      · by_cases hv : v = w
        · rw [hv, Function.update_self]
        · rw [Function.update_of_ne hv]
      · rfl
  | push h' =>
      rcases h with ⟨w, rfl, rfl, rfl⟩ | ⟨-, rfl, rfl⟩
      · have hpushed : pushed v (.push (t.handle w), .flag true) = decide ((w : Nat) = v) := by
          simp only [pushed, hwho]
        rw [hpushed]
        by_cases hv : v = w
        · rw [hv, Function.update_self, decide_eq_true rfl, if_pos rfl]
        · have hne : ¬ (w : Nat) = v := fun he => hv (Fin.ext he.symm)
          rw [Function.update_of_ne hv, decide_eq_false hne, if_neg Bool.false_ne_true, UInt32.add_zero]
      · have hno : pushed v (.push h', .flag false) = false := rfl
        rw [hno, if_neg Bool.false_ne_true, UInt32.add_zero]
  | pop x =>
      have hno : pushed v (.pop x, r) = false := rfl
      rw [hno, if_neg Bool.false_ne_true, UInt32.add_zero]
      rcases h with ⟨w, -, -, -, -, rfl⟩ | ⟨-, -, rfl⟩
      · by_cases hv : v = w
        · rw [hv, Function.update_self]
        · rw [Function.update_of_ne hv]
      · rfl

/-- Over a run the generation advances by the accepted `Push`es. -/
theorem Run.gen (hN : N < 2 ^ 32) (hK : 0 < K) (hs : Reachable s) (h : Run ok s s' log) (w : Fin N) :
    s'.gen w = s.gen w + UInt32.ofNat (pushes w log) := by
  induction h with
  | start => exact (UInt32.add_zero _).symm
  | @call s₁ s₂ log op r hrun _ hop ih =>
      have hstep := ((hrun.reachable hs).tableStep hN hK hop).gen hN w
      simp only [table] at hstep
      rw [hstep, ih, pushes, pushes, List.countP_cons, UInt32.ofNat_add, UInt32.add_assoc]
      split_ifs <;> rfl

/-- **Exact lifetime**: after a run, the handle a slot had before it is valid
exactly when the number of accepted `Push`es of the slot is a multiple of
`2 ^ 32`; and `kInvalidHandle` is not valid. -/
theorem lifetime (hN : N < 2 ^ 32) (hK : 0 < K) (s s' : SparseSet N K) (hs : Reachable s) (log : Log)
    (h : Run anyCall s s' log) (w : Fin N) :
    (s'.isValid (s.handleAt w) = true ↔ 2 ^ 32 ∣ pushes w log) ∧
      s'.isValid kInvalidHandle = false := by
  refine ⟨?_, isValid_kInvalidHandle hN s'⟩
  have hgen := h.gen hN hK hs w
  -- the handle can only be the current one of its own slot
  have hvalid : s'.isValid (s.handleAt w) = true ↔ s'.gen w = s.gen w := by
    rw [isValid_iff hN]
    constructor
    · rintro ⟨v, hv⟩
      have hwho := toNat_whoOf_handleAt hN s w
      rw [hv, toNat_whoOf_handleAt hN s' v] at hwho
      rw [Fin.ext hwho] at hv
      have hg := congrArg generationOf hv
      rw [handleAt, handleAt, generationOf_handleOf, generationOf_handleOf] at hg
      exact hg.symm
    · intro hg
      exact ⟨w, by rw [handleAt, handleAt, hg]⟩
  rw [hvalid, hgen, UInt32.add_eq_left, ← UInt32.toNat_inj, UInt32.toNat_ofNat', UInt32.toNat_zero,
    Nat.dvd_iff_mod_eq_zero]

/-- Slot 0 is pushed once: its first handle is valid no more. -/
theorem lifetime_push :
    ∃ (s : SparseSet 3 2) (log : Log), Run anyCall (new 3 2) s log ∧ pushes (0 : Fin 3) log = 1 ∧
      (s.isValid 0 = true ↔ 2 ^ 32 ∣ pushes (0 : Fin 3) log) ∧ s.isValid kInvalidHandle = false := by
  have hplay : ((new 3 2).play [.push 0, .pop 1]).map (fun x => pushes (0 : Fin 3) x.2) = some 1 := by
    decide +kernel
  obtain ⟨⟨s, log⟩, h, hpushes⟩ := Option.map_eq_some_iff.mp hplay
  have hrun : Run anyCall (new 3 2) s log := .of_play (fun _ _ _ _ => trivial) h
  exact ⟨s, log, hrun, hpushes, lifetime (by decide) (by decide) (new 3 2) s .new log hrun 0⟩

/-! ## handing out -/

/-- The handles handed out by `Pop` and not accepted by `Push` since. -/
def out : Log → List UInt64
  | [] => []
  | (.pop _, .handle h) :: log => if h = kInvalidHandle then out log else h :: out log
  | (.push h, .flag true) :: log => (out log).filter fun h' => h' ≠ h
  | _ :: log => out log

/-- `Pop` hands out no handle that is out. -/
def NoneTwice (log : Log) : Prop :=
  ∀ log₁ x h log₂, log = log₁ ++ (.pop x, .handle h) :: log₂ → h ≠ kInvalidHandle → h ∉ out log₂

/-- A call does not leave a handle that is out in state 0: `Pop` is not asked for
state 0, unless no slot is idle, and `MoveToState` moves none of these handles
there. -/
def Proper (s : SparseSet N K) (log : Log) : Op → Prop
  | .pop x => x = 0 → ∀ w, (s.table w).1 ≠ 0
  | .moveToState h x => x = 0 → h ∉ out log
  | .push _ => True

/-- The handles that are out are current, and in use. -/
def Held (s : SparseSet N K) (log : Log) : Prop :=
  ∀ h ∈ out log, ∃ w, h = s.table.handle w ∧ (s.table w).1 ≠ 0

/-- Other handles stay current. -/
theorem Table.handle_update (t : Table N) {v w : Fin N} (x : Nat × UInt32) (hv : v ≠ w) :
    Table.handle (Function.update t w x) v = t.handle v := by
  rw [Table.handle, Table.handle, Function.update_of_ne hv]

/-- A handle stays current through a change of state. -/
theorem Table.handle_moved (t : Table N) (v w : Fin N) (x : Nat) :
    Table.handle (Function.update t w (x, (t w).2)) v = t.handle v := by
  by_cases hv : v = w
  · rw [Table.handle, Table.handle, hv, Function.update_self]
  · exact t.handle_update _ hv

/-- **Step lemma**. -/
theorem Held.call {op : Op} {r : Reply} (h : Held s log) (hproper : Proper s log op)
    (hstep : Table.Step K s.table op r s'.table) : Held s' ((op, r) :: log) := by
  intro g hg
  cases op with
  | moveToState h' x =>
      obtain ⟨v, hv, hstate⟩ := h g hg
      rcases hstep with ⟨w, hw, -, rfl, ht⟩ | ⟨-, rfl, ht⟩
      · refine ⟨v, by rw [ht, Table.handle_moved]; exact hv, ?_⟩
        by_cases hvw : v = w
        · -- it is moved to a state in use
          rw [ht, hvw, Function.update_self]
          intro hx
          rw [hvw, ← hw] at hv
          exact hproper hx (hv ▸ hg)
        · rwa [ht, Function.update_of_ne hvw]
      · exact ⟨v, by rw [ht]; exact hv, by rw [ht]; exact hstate⟩
  | push h' =>
      rcases hstep with ⟨w, hw, rfl, ht⟩ | ⟨-, rfl, ht⟩
      · obtain ⟨hmem, hne⟩ := List.mem_filter.mp hg
        obtain ⟨v, hv, hstate⟩ := h g hmem
        have hvw : v ≠ w := fun he => by
          rw [hw, hv, he] at hne
          simp at hne
        exact ⟨v, by rw [ht, Table.handle_update _ _ hvw]; exact hv,
          by rwa [ht, Function.update_of_ne hvw]⟩
      · obtain ⟨v, hv, hstate⟩ := h g hg
        exact ⟨v, by rw [ht]; exact hv, by rw [ht]; exact hstate⟩
  | pop x =>
      rcases hstep with ⟨w, -, hidle, rfl, hne, ht⟩ | ⟨-, rfl, ht⟩
      · have hx : x ≠ 0 := fun hx => hproper hx w hidle
        rw [out, if_neg hne] at hg
        rcases List.mem_cons.mp hg with rfl | hg
        · exact ⟨w, by rw [ht, Table.handle_moved], by rwa [ht, Function.update_self]⟩
        · obtain ⟨v, hv, hstate⟩ := h g hg
          have hvw : v ≠ w := fun he => hstate (he ▸ hidle)
          exact ⟨v, by rw [ht, Table.handle_moved]; exact hv, by rwa [ht, Function.update_of_ne hvw]⟩
      · rw [out, if_pos rfl] at hg
        obtain ⟨v, hv, hstate⟩ := h g hg
        exact ⟨v, by rw [ht]; exact hv, by rw [ht]; exact hstate⟩

/-- `Pop` takes an idle slot, which is none that is out. -/
theorem Held.pop (hN : N < 2 ^ 32) {x : Nat} {h' : UInt64} (h : Held s log)
    (hstep : Table.Step K s.table (.pop x) (.handle h') s'.table) (hne : h' ≠ kInvalidHandle) :
    h' ∉ out log := by
  intro hmem
  obtain ⟨v, rfl, hstate⟩ := h h' hmem
  rcases hstep with ⟨w, -, hidle, hr, -, -⟩ | ⟨-, hr, -⟩
  · have hvw := handleAt_inj hN s (Reply.handle.inj hr)
    exact hstate (hvw ▸ hidle)
  · exact hne (Reply.handle.inj hr)

/-- **Run lemma**. -/
theorem Run.held (hN : N < 2 ^ 32) (hK : 0 < K) (h : Run Proper (new N K) s log) :
    Held s log ∧ NoneTwice log := by
  induction h with
  | start => exact ⟨fun _ hg => absurd hg List.not_mem_nil, fun log₁ x g log₂ he =>
      absurd he (by simp)⟩
  | @call s₁ s₂ log op r hrun hproper hop ih =>
      have hstep := (hrun.reachable .new).tableStep hN hK hop
      refine ⟨ih.1.call hproper hstep, fun log₁ x g log₂ he hne => ?_⟩
      cases log₁ with
      | nil =>
          rw [List.nil_append, List.cons.injEq, Prod.mk.injEq] at he
          obtain ⟨⟨rfl, rfl⟩, rfl⟩ := he
          exact ih.1.pop hN hstep hne
      | cons e log₁ =>
          rw [List.cons_append, List.cons.injEq] at he
          exact ih.2 log₁ x g log₂ he.2 hne

/-! ## handing out again -/

/-- Runs one after the other. -/
theorem Run.trans {s'' : SparseSet N K} {log' : Log} (h : Run ok s s' log) (h' : Run anyCall s' s'' log') :
    Run anyCall s s'' (log' ++ log) := by
  induction h' with
  | start => exact h.any
  | call _ _ hop ih => exact .call ih trivial hop

/-- The handles out are out after any further `Pop`s. -/
theorem mem_out_append {h : UInt64} {log' : Log} (hpops : ∀ e ∈ log', ∃ x h', e = (.pop x, .handle h'))
    (hmem : h ∈ out log) : h ∈ out (log' ++ log) := by
  induction log' with
  | nil => exact hmem
  | cons e log' ih =>
      have hrest := ih fun e he => hpops e (List.mem_cons_of_mem _ he)
      obtain ⟨x, h', rfl⟩ := hpops e List.mem_cons_self
      rw [List.cons_append, out]
      split_ifs
      · exact hrest
      · exact List.mem_cons_of_mem _ hrest

/-- `MoveToState` to the state a slot is in. -/
theorem moveToState_self (hN : N < 2 ^ 32) (s : SparseSet N K) (w : Fin N) {x : Nat}
    (hx : (s.sparse_ w).state_ = x) (hlt : x < K) :
    s.moveToState (s.handleAt w) x = some (true, s) := by
  have hge : ¬ x ≥ K := by omega
  have hslot : s.sparse_.get? (whoOf (s.handleAt w)).toNat = some (s.sparse_ w) := by
    rw [toNat_whoOf_handleAt hN, FixedArray.get?_val]
  obtain ⟨k, rfl⟩ : ∃ k, K = k + 1 := ⟨K - 1, by omega⟩
  simp only [moveToState, hge, if_false, isValid_handleAt hN, Bool.not_true, Bool.false_eq_true,
    raiseLoop, lowerLoop, hslot, hx, lt_irrefl, gt_iff_lt, Option.bind_eq_bind, Option.bind_some,
    Option.pure_def]

/-- `Pop` to state 0 leaves everything as it is. -/
theorem pop_zero (hN : N < 2 ^ 32) (hK : 0 < K) {b : Blocks N K} (hr : Repr s b) {h : UInt64}
    (hpop : s.pop 0 = some (h, s')) : s' = s := by
  by_cases hidle : ∃ w, (b.block w : Nat) = 0
  · obtain ⟨v, hv⟩ := hidle
    have hmem := (b.mem_block v).2
    rw [hv, Nat.zero_add] at hmem
    have hle := b.bound_le 1
    have hpos : 0 < b.bound 1 := by omega
    have hfirst : (b.block (b.elem ⟨0, by omega⟩) : Nat) = 0 := by
      have hiff := (b.block_eq_iff (b.elem ⟨0, by omega⟩) ⟨0, hK⟩).mpr (by
        rw [Blocks.pos_elem]
        exact ⟨b.bound_zero.le, hpos⟩)
      exact congrArg Fin.val hiff
    have hge : ¬ 0 ≥ K := by omega
    have h0 : s.cursor_.get? 0 = some 0 := by
      rw [FixedArray.get?_of_lt _ (by omega), hr.cursor, b.bound_zero]
      rfl
    have h1 : s.cursor_.get? 1 = some (UInt32.ofNat (b.bound 1)) := by
      rw [FixedArray.get?_of_lt _ (by omega), hr.cursor]
    have hd : s.dense_.get? 0 = some (UInt32.ofNat (b.elem ⟨0, by omega⟩)) := by
      rw [FixedArray.get?_of_lt _ (by omega), hr.dense]
    have hself := moveToState_self hN s (b.elem ⟨0, by omega⟩) (by rw [hr.state, hfirst]) hK
    simp only [pop, hge, if_false, h0, h1, UInt32.toNat_zero, hd, getHandle_spec hN, hself,
      Option.bind_eq_bind, Option.bind_some, Option.pure_def] at hpop
    split_ifs at hpop
    · exact (Prod.mk.inj (Option.some.inj hpop)).2.symm
    · exact (Prod.mk.inj (Option.some.inj hpop)).2.symm
  · rw [pop_empty hr hK hK fun w hw => hidle ⟨w, hw⟩] at hpop
    exact (Prod.mk.inj (Option.some.inj hpop)).2.symm

/-- The slots in state 0. -/
def idleSlots (t : Table N) : Finset (Fin N) := Finset.univ.filter fun w => (t w).1 = 0

/-- An idle slot is handed out after enough `Pop`s. -/
theorem exists_pops (hN : N < 2 ^ 32) (hK : 1 < K) (n : Nat) (hs : Reachable s) (w : Fin N)
    (hidle : (s.table w).1 = 0) (hn : (idleSlots s.table).card = n) :
    ∃ s' log, Run anyCall s s' ((.pop 1, .handle (s.handleAt w)) :: log) ∧
      ∀ e ∈ log, ∃ x h, e = (.pop x, .handle h) := by
  induction n generalizing s with
  | zero =>
      have hmem : w ∈ idleSlots s.table := Finset.mem_filter.mpr ⟨Finset.mem_univ w, hidle⟩
      rw [Finset.card_eq_zero.mp hn] at hmem
      exact absurd hmem (Finset.notMem_empty w)
  | succ n ih =>
      obtain ⟨b, hr⟩ := hs.repr hN (by omega)
      obtain ⟨r, s₁, hop, -, hstep, -⟩ := hr.apply_spec hN (by omega) (.pop 1)
      rcases hstep with ⟨v, -, hv, rfl, -, ht⟩ | ⟨hno, -, -⟩
      · have hrun : Run anyCall s s₁ [(.pop 1, .handle (s.handleAt v))] := .call .start trivial hop
        by_cases hvw : v = w
        · subst hvw
          exact ⟨s₁, [], hrun, fun e he => absurd he List.not_mem_nil⟩
        · -- another slot was idle; there is one less now
          have herase : idleSlots s₁.table = (idleSlots s.table).erase v := by
            ext u
            rw [idleSlots, idleSlots, Finset.mem_filter, Finset.mem_erase, Finset.mem_filter, ht]
            by_cases hu : u = v
            · rw [hu, Function.update_self]
              simp
            · rw [Function.update_of_ne hu]
              simp [hu]
          have hcard : (idleSlots s₁.table).card = n := by
            have hmem : v ∈ idleSlots s.table := Finset.mem_filter.mpr ⟨Finset.mem_univ v, hv⟩
            rw [herase, Finset.card_erase_of_mem hmem, hn]
            rfl
          have hw : (s₁.table w).1 = 0 := by
            rwa [ht, Function.update_of_ne (Ne.symm hvw)]
          have hhandle : s₁.handleAt w = s.handleAt w := by
            rw [← table_handle, ht, Table.handle_moved]
            rfl
          obtain ⟨s', log, hrun', hpops⟩ := ih (hrun.reachable hs) hw hcard
          rw [hhandle] at hrun'
          have hboth := hrun.trans hrun'
          rw [List.cons_append] at hboth
          refine ⟨s', _, hboth, fun e he => ?_⟩
          rcases List.mem_append.mp he with he | he
          · exact hpops e he
          · exact ⟨1, _, List.mem_singleton.mp he⟩
      · rcases hno with hge | hno
        · omega
        · exact absurd hidle (hno w)

/-- `Pop` returns a handle that is out: it is handed out twice. -/
theorem not_noneTwice {h : UInt64} {x : Nat} (hne : h ≠ kInvalidHandle) (hmem : h ∈ out log) :
    ¬ NoneTwice ((.pop x, .handle h) :: log) :=
  fun hnone => hnone [] x h log rfl hne hmem

/-- **Exclusive ownership**: as long as no call leaves a handle that is out in
state 0, `Pop` never hands out a handle that is out; after one that does, some
further calls hand it out again. -/
theorem exclusive (hN : N < 2 ^ 32) (hK : 0 < K) :
    (∀ (s : SparseSet N K) log, Run Proper (new N K) s log → NoneTwice log) ∧
    ∀ (s s' : SparseSet N K) log op r, Run Proper (new N K) s log → ¬ Proper s log op →
      s.apply op = some (r, s') →
      ∃ s'' log', Run anyCall s' s'' log' ∧ ¬ NoneTwice (log' ++ (op, r) :: log) := by
  refine ⟨fun s log h => (h.held hN hK).2, fun s s' log op r h hbad hop => ?_⟩
  have hs := h.reachable .new
  have hstep := hs.tableStep hN hK hop
  cases op with
  | pop x =>
      obtain ⟨rfl, w, hw⟩ : x = 0 ∧ ∃ w, (s.table w).1 = 0 := by
        by_contra hno
        rw [not_and, not_exists] at hno
        exact hbad fun hx => hno hx
      obtain ⟨b, hr⟩ := hs.repr hN hK
      rcases hstep with ⟨v, -, -, rfl, hne, -⟩ | ⟨hno, -, -⟩
      · -- nothing has changed, and the same handle is next
        have hsame : s' = s := by
          obtain ⟨⟨h', s₁⟩, hpop, he⟩ := Option.map_eq_some_iff.mp hop
          rw [Prod.mk.injEq] at he
          rw [← he.2]
          exact pop_zero hN hK hr hpop
        rw [hsame] at hop ⊢
        refine ⟨s, [(.pop 0, .handle (s.table.handle v))], .call .start trivial hop, ?_⟩
        refine not_noneTwice hne ?_
        have hout : out ((.pop 0, .handle (s.table.handle v)) :: log) =
            s.table.handle v :: out log := if_neg hne
        change s.table.handle v ∈ out ((.pop 0, .handle (s.table.handle v)) :: log)
        rw [hout]
        exact List.mem_cons_self
      · rcases hno with hge | hno
        · omega
        · exact absurd hw (hno w)
  | moveToState h' x =>
      obtain ⟨rfl, hmem⟩ : x = 0 ∧ h' ∈ out log := by
        by_contra hno
        rw [not_and] at hno
        exact hbad fun hx => hno hx
      obtain ⟨w, rfl, hstate⟩ := (h.held hN hK).1 h' hmem
      have hlt : (s.table w).1 < K := by
        obtain ⟨b, hr⟩ := hs.repr hN hK
        simp only [table, hr.state]
        exact (b.block w).isLt
      rcases hstep with ⟨v, hv, -, rfl, ht⟩ | ⟨hno, -, -⟩
      · have hvw := handleAt_inj hN s hv
        have hidle : (s'.table w).1 = 0 := by rw [ht, hvw, Function.update_self]
        have hhandle : s'.handleAt w = s.table.handle w := by
          rw [← table_handle, ht, Table.handle_moved]
        obtain ⟨s'', log', hrun, hpops⟩ := exists_pops hN (by omega) _ (.apply _ hs hop) w hidle rfl
        refine ⟨s'', _, hrun, ?_⟩
        rw [List.cons_append]
        refine not_noneTwice (fun he => kInvalidHandle_ne_handleAt hN s' w he.symm) ?_
        refine mem_out_append hpops ?_
        rw [hhandle]
        exact hmem
      · rcases hno with hge | hno
        · omega
        · exact absurd rfl (hno w)
  | push h' => exact absurd trivial hbad

/-- The only slot is handed out, pushed, and handed out with its next handle. -/
theorem exclusive_reuse :
    ∃ (s : SparseSet 1 3) (log : Log), Run Proper (new 1 3) s log ∧
      log.map Prod.snd = [.handle 4294967296, .flag true, .handle 0] ∧ NoneTwice log := by
  have hplay : ((new 1 3).play [.pop 2, .push 0, .pop 1]).map (fun x => x.2.map Prod.snd) =
      some [.handle 4294967296, .flag true, .handle 0] := by
    decide +kernel
  obtain ⟨⟨s, log⟩, h, hreplies⟩ := Option.map_eq_some_iff.mp hplay
  have hproper : ∀ (s' : SparseSet 1 3) log, ∀ op ∈ [Op.pop 2, .push 0, .pop 1],
      Proper s' log op := by
    intro s' log op hop
    simp only [List.mem_cons, List.not_mem_nil, or_false] at hop
    rcases hop with rfl | rfl | rfl
    · exact fun hx => absurd hx (by decide)
    · exact trivial
    · exact fun hx => absurd hx (by decide)
  have hrun : Run Proper (new 1 3) s log := .of_play hproper h
  exact ⟨s, log, hrun, hreplies, (exclusive (by decide) (by decide)).1 s log hrun⟩

/-- `Pop()` twice, with the default state 0, hands out the same handle. -/
theorem pop_default_twice :
    ∃ s : SparseSet 10 3, Run anyCall (new 10 3) s [(.pop 0, .handle 0), (.pop 0, .handle 0)] ∧
      ¬ NoneTwice [(.pop 0, .handle 0), (.pop 0, .handle 0)] := by
  have hrun : ∃ s₁ s₂ : SparseSet 10 3, (new 10 3).apply (.pop 0) = some (.handle 0, s₁) ∧
      s₁.apply (.pop 0) = some (.handle 0, s₂) := ⟨_, _, rfl, rfl⟩
  obtain ⟨s₁, s₂, h₁, h₂⟩ := hrun
  refine ⟨s₂, .call (.call .start trivial h₁) trivial h₂, not_noneTwice (by decide) ?_⟩
  decide

/-! ## stale handles -/

/-- A public mutator that is given a handle. -/
inductive Mutator where
  | push
  | moveToState (newState : Nat)
  | incrementState
  | decrementState

/-- Call it. -/
def Mutator.call (s : SparseSet N K) (h : UInt64) : Mutator → Option (Bool × SparseSet N K)
  | .push => s.push h
  | .moveToState newState => s.moveToState h newState
  | .incrementState => s.incrementState h
  | .decrementState => s.decrementState h

/-- Where a mutator refuses a handle that is not valid: `IncrementState` and
`DecrementState` look at the slot alone. -/
def Mutator.Refuses (s : SparseSet N K) (h : UInt64) : Mutator → Prop
  | .push | .moveToState _ => True
  | .incrementState => ∃ slot, s.sparse_.get? (whoOf h).toNat = some slot ∧ K - 1 ≤ slot.state_
  | .decrementState => ∃ slot, s.sparse_.get? (whoOf h).toNat = some slot ∧ slot.state_ = 0

/-- `IncrementState` below the last state does not return `false`. -/
theorem incrementState_ne_false {h : UInt64} {slot : Slot}
    (hslot : s.sparse_.get? (whoOf h).toNat = some slot) (hlt : slot.state_ < K - 1) :
    s.incrementState h ≠ some (false, s') := by
  intro he
  have hge : ¬ slot.state_ ≥ K - 1 := by omega
  simp only [incrementState, hslot, hge, if_false, Option.bind_eq_bind, Option.bind_some,
    Option.pure_def, Option.bind_eq_some_iff, Option.some.injEq, Prod.mk.injEq, Bool.true_eq_false,
    false_and, and_false] at he
  obtain ⟨_, _, _, _, _, _, _, hfalse⟩ := he
  exact hfalse

/-- `DecrementState` above the first state does not return `false`. -/
theorem decrementState_ne_false {h : UInt64} {slot : Slot}
    (hslot : s.sparse_.get? (whoOf h).toNat = some slot) (hne : slot.state_ ≠ 0) :
    s.decrementState h ≠ some (false, s') := by
  intro he
  simp only [decrementState, hslot, hne, if_false, Option.bind_eq_bind, Option.bind_some,
    Option.pure_def, Option.bind_eq_some_iff, Option.some.injEq, Prod.mk.injEq, Bool.true_eq_false,
    false_and, and_false] at he
  obtain ⟨_, _, _, _, _, _, _, hfalse⟩ := he
  exact hfalse

/-- A mutator refuses a handle that is not valid, and changes nothing, exactly
where `Refuses` says. -/
theorem harmless_iff (s : SparseSet N K) (h : UInt64) (hv : s.isValid h = false) (m : Mutator) :
    m.call s h = some (false, s) ↔ m.Refuses s h := by
  cases m with
  | push => exact ⟨fun _ => trivial, fun _ => push_refused s hv⟩
  | moveToState newState => exact ⟨fun _ => trivial, fun _ => moveToState_refused s (.inr hv)⟩
  | incrementState =>
      constructor
      · intro he
        cases hslot : s.sparse_.get? (whoOf h).toNat with
        | none =>
            simp only [Mutator.call, incrementState, hslot, Option.bind_eq_bind, Option.bind_none] at he
            cases he
        | some slot =>
            refine ⟨slot, hslot, ?_⟩
            by_contra hlt
            exact incrementState_ne_false hslot (by omega) he
      · rintro ⟨slot, hslot, hge⟩
        simp only [Mutator.call, incrementState, hslot, Option.bind_eq_bind, Option.bind_some,
          ge_iff_le, hge, if_true, Option.pure_def]
  | decrementState =>
      constructor
      · intro he
        cases hslot : s.sparse_.get? (whoOf h).toNat with
        | none =>
            simp only [Mutator.call, decrementState, hslot, Option.bind_eq_bind, Option.bind_none] at he
            cases he
        | some slot =>
            refine ⟨slot, hslot, ?_⟩
            by_contra hne
            exact decrementState_ne_false hslot hne he
      · rintro ⟨slot, hslot, h0⟩
        simp only [Mutator.call, decrementState, hslot, Option.bind_eq_bind, Option.bind_some, h0,
          if_true, Option.pure_def]

/-- The only slot is handed out, pushed, and handed out again in the last state: its first
handle is stale, and `IncrementState` refuses it. -/
theorem harmless_iff_stale :
    ∃ (s : SparseSet 1 3) (log : Log), Run anyCall (new 1 3) s log ∧
      s.isValid 0 = false ∧ (s.table 0).1 = 2 ∧
      (Mutator.incrementState.call s 0 = some (false, s) ↔ Mutator.incrementState.Refuses s 0) := by
  have hplay : ((new 1 3).play [.pop 2, .push 0, .pop 1]).map
      (fun x => (x.1.isValid 0, (x.1.table 0).1)) = some (false, 2) := by decide +kernel
  obtain ⟨⟨s, log⟩, h, hfields⟩ := Option.map_eq_some_iff.mp hplay
  obtain ⟨hvalid, hstate⟩ := Prod.mk.inj hfields
  exact ⟨s, log, .of_play (fun _ _ _ _ => trivial) h, hvalid, hstate,
    harmless_iff s 0 hvalid .incrementState⟩

/-- The only slot is handed out, pushed, and handed out again in state 1: with the first
handle `IncrementState` moves it to state 2. -/
theorem incrementState_stale :
    ∃ (s s' : SparseSet 1 3) (log : Log), Run anyCall (new 1 3) s log ∧
      s.isValid 0 = false ∧ s.incrementState 0 = some (true, s') ∧
      (s.table 0).1 = 1 ∧ (s'.table 0).1 = 2 := by
  have hplay : (((new 1 3).play [.pop 1, .push 0, .pop 1]).bind fun x =>
      (x.1.incrementState 0).map fun y =>
        (x.1.isValid 0, y.1, (x.1.table 0).1, (y.2.table 0).1)) = some (false, true, 1, 2) := by
    decide +kernel
  obtain ⟨⟨s, log⟩, h, hinc⟩ := Option.bind_eq_some_iff.mp hplay
  obtain ⟨⟨b, s'⟩, hs', hfields⟩ := Option.map_eq_some_iff.mp hinc
  simp only [Prod.mk.injEq] at hfields
  obtain ⟨hvalid, rfl, hbefore, hafter⟩ := hfields
  exact ⟨s, s', log, .of_play (fun _ _ _ _ => trivial) h, hvalid, hs', hbefore, hafter⟩

end SparseSet

end ServerStudy
