import Mathlib.Tactic.Common

/-!
# ServerStudy.Framing

Cutting a stream into frames whose headers hold their size.

A `Framing` says how long a header is and what size it announces.  `cut` takes
the complete frames off the left of a stream; it stops at a frame whose bytes
have not all arrived, or for good at a header that announces less than itself.

* `cut_append` — cutting what has arrived first, and then what was left over
  together with the rest, is the same as cutting the whole stream;
* `flatten_cut` — the frames and the leftover are the stream;
* `cut_front`, `cut_flatten` — a stream of whole frames is cut into these.
-/

namespace ServerStudy

/-- Frames over an alphabet `α`: the length of a header, and the size it
announces, which the bytes after it do not change. -/
structure Framing (α : Type) where
  header : Nat
  header_pos : 0 < header
  size : List α → Nat
  size_append : ∀ s t, header ≤ s.length → size (s ++ t) = size s

/-- A stream cut into frames: what is left over, and whether that starts with a
header no frame can have. -/
structure Cut (α : Type) where
  frames : List (List α)
  rest : List α
  malformed : Bool

namespace Framing

variable {α : Type} (F : Framing α)

/-- Cut a stream into frames. -/
def cut (s : List α) : Cut α :=
  if s.length < F.header then ⟨[], s, false⟩
  else if F.size s < F.header then ⟨[], s, true⟩
  else if s.length < F.size s then ⟨[], s, false⟩
  else
    let c := cut (s.drop (F.size s))
    ⟨s.take (F.size s) :: c.frames, c.rest, c.malformed⟩
  termination_by s.length
  decreasing_by
    have := F.header_pos
    rw [List.length_drop]
    omega

variable {F}

/-- No header yet. -/
theorem cut_short {s : List α} (h : s.length < F.header) : F.cut s = ⟨[], s, false⟩ := by
  rw [cut, if_pos h]

/-- A header that announces less than itself. -/
theorem cut_malformed {s : List α} (h : F.header ≤ s.length) (hsize : F.size s < F.header) :
    F.cut s = ⟨[], s, true⟩ := by
  rw [cut, if_neg (by omega), if_pos hsize]

/-- A frame still arriving. -/
theorem cut_incomplete {s : List α} (h : F.header ≤ s.length) (hsize : F.header ≤ F.size s)
    (hlen : s.length < F.size s) : F.cut s = ⟨[], s, false⟩ := by
  rw [cut, if_neg (by omega), if_neg (by omega), if_pos hlen]

/-- A complete frame. -/
theorem cut_frame {s : List α} (h : F.header ≤ s.length) (hsize : F.header ≤ F.size s)
    (hlen : F.size s ≤ s.length) :
    F.cut s = ⟨s.take (F.size s) :: (F.cut (s.drop (F.size s))).frames,
      (F.cut (s.drop (F.size s))).rest, (F.cut (s.drop (F.size s))).malformed⟩ := by
  rw [cut, if_neg (by omega), if_neg (by omega), if_neg (by omega)]

/-- Cutting may be resumed when more of the stream arrives, unless it has
stopped for good. -/
theorem cut_append (s t : List α) :
    F.cut (s ++ t) =
      if (F.cut s).malformed then ⟨(F.cut s).frames, (F.cut s).rest ++ t, true⟩
      else ⟨(F.cut s).frames ++ (F.cut ((F.cut s).rest ++ t)).frames,
        (F.cut ((F.cut s).rest ++ t)).rest, (F.cut ((F.cut s).rest ++ t)).malformed⟩ := by
  by_cases hshort : s.length < F.header
  · simp [cut_short hshort]
  rw [Nat.not_lt] at hshort
  have hlong : F.header ≤ (s ++ t).length := by rw [List.length_append]; omega
  by_cases hbad : F.size s < F.header
  · rw [cut_malformed hshort hbad,
      cut_malformed hlong (by rw [F.size_append s t hshort]; exact hbad)]
    simp
  rw [Nat.not_lt] at hbad
  by_cases hpart : s.length < F.size s
  · simp [cut_incomplete hshort hbad hpart]
  rw [Nat.not_lt] at hpart
  have ih := cut_append (s.drop (F.size s)) t
  have hsize := F.size_append s t hshort
  rw [cut_frame hlong (by omega) (by rw [hsize, List.length_append]; omega),
    cut_frame hshort hbad hpart, hsize, List.take_append_of_le_length hpart,
    List.drop_append_of_le_length hpart, ih]
  split_ifs <;> rfl
  termination_by s.length
  decreasing_by
    have := F.header_pos
    rw [List.length_drop]
    omega

/-- What is left over has no complete frame in it. -/
theorem cut_rest (s : List α) : F.cut (F.cut s).rest = ⟨[], (F.cut s).rest, (F.cut s).malformed⟩ := by
  by_cases hshort : s.length < F.header
  · rw [cut_short hshort, cut_short hshort]
  rw [Nat.not_lt] at hshort
  by_cases hbad : F.size s < F.header
  · rw [cut_malformed hshort hbad, cut_malformed hshort hbad]
  rw [Nat.not_lt] at hbad
  by_cases hpart : s.length < F.size s
  · rw [cut_incomplete hshort hbad hpart, cut_incomplete hshort hbad hpart]
  rw [Nat.not_lt] at hpart
  have ih := cut_rest (s.drop (F.size s))
  rw [cut_frame hshort hbad hpart]
  exact ih
  termination_by s.length
  decreasing_by
    have := F.header_pos
    rw [List.length_drop]
    omega

/-- The frames and the leftover are the stream. -/
theorem flatten_cut (s : List α) : (F.cut s).frames.flatten ++ (F.cut s).rest = s := by
  by_cases hshort : s.length < F.header
  · simp [cut_short hshort]
  rw [Nat.not_lt] at hshort
  by_cases hbad : F.size s < F.header
  · simp [cut_malformed hshort hbad]
  rw [Nat.not_lt] at hbad
  by_cases hpart : s.length < F.size s
  · simp [cut_incomplete hshort hbad hpart]
  rw [Nat.not_lt] at hpart
  have ih := flatten_cut (s.drop (F.size s))
  rw [cut_frame hshort hbad hpart]
  simp only [List.flatten_cons, List.append_assoc]
  rw [ih, List.take_append_drop]
  termination_by s.length
  decreasing_by
    have := F.header_pos
    rw [List.length_drop]
    omega

/-! ## streams of whole frames -/

theorem cut_nil : F.cut [] = ⟨[], [], false⟩ := cut_short (s := []) F.header_pos

/-- A list that is one frame. -/
def Whole (F : Framing α) (f : List α) : Prop := F.header ≤ f.length ∧ F.size f = f.length

/-- What `cut` takes off is one. -/
theorem whole_take {s : List α} (hsize : F.header ≤ F.size s) (hlen : F.size s ≤ s.length) :
    F.Whole (s.take (F.size s)) := by
  have htake := List.length_take_of_le hlen
  have happend := F.size_append (s.take (F.size s)) (s.drop (F.size s)) (by rw [htake]; exact hsize)
  rw [List.take_append_drop] at happend
  exact ⟨by rw [htake]; exact hsize, happend.symm.trans htake.symm⟩

/-- A frame that has not arrived wholly. -/
theorem Whole.cut_part {f s t : List α} (h : F.Whole f) (hf : s ++ t = f) (ht : t ≠ []) :
    F.cut s = ⟨[], s, false⟩ := by
  subst hf
  have hpos := List.length_pos_iff.mpr ht
  have hlen := h.1
  have hsize := h.2
  rw [List.length_append] at hlen hsize
  by_cases hshort : s.length < F.header
  · exact cut_short hshort
  · rw [F.size_append s t (by omega)] at hsize
    exact cut_incomplete (by omega) (by omega) (by omega)

/-- A frame in front. -/
theorem Whole.cut_append {f : List α} (h : F.Whole f) (s : List α) :
    F.cut (f ++ s) = ⟨f :: (F.cut s).frames, (F.cut s).rest, (F.cut s).malformed⟩ := by
  have hlen : F.header ≤ (f ++ s).length := by
    rw [List.length_append]
    have := h.1
    omega
  have hsize : F.size (f ++ s) = f.length := (F.size_append f s h.1).trans h.2
  rw [cut_frame hlen (hsize ▸ h.1) (by rw [hsize, List.length_append]; omega), hsize,
    List.take_left, List.drop_left]

/-- What has arrived of some frames is cut into the first of them. -/
theorem cut_front {frames : List (List α)} (h : ∀ f ∈ frames, F.Whole f) {s : List α}
    (hs : s <+: frames.flatten) : (F.cut s).frames <+: frames ∧ (F.cut s).malformed = false := by
  induction frames generalizing s with
  | nil =>
      rw [List.prefix_nil.mp hs, cut_nil]
      exact ⟨List.nil_prefix, rfl⟩
  | cons f frames ih =>
      have hf := h f List.mem_cons_self
      obtain ⟨t, ht⟩ := hs
      rw [List.flatten_cons] at ht
      rcases List.append_eq_append_iff.mp ht with ⟨t', hs', -⟩ | ⟨s', rfl, hs'⟩
      · by_cases hnil : t' = []
        · rw [hnil, List.append_nil] at hs'
          have hone := hf.cut_append []
          rw [List.append_nil, cut_nil] at hone
          rw [← hs', hone]
          exact ⟨(List.prefix_cons_inj f).mpr List.nil_prefix, rfl⟩
        · rw [hf.cut_part hs'.symm hnil]
          exact ⟨List.nil_prefix, rfl⟩
      · obtain ⟨hframes, hgood⟩ := ih (fun g hg => h g (List.mem_cons_of_mem f hg)) ⟨t, hs'.symm⟩
        rw [hf.cut_append]
        exact ⟨(List.prefix_cons_inj f).mpr hframes, hgood⟩

/-- All of them have. -/
theorem cut_flatten {frames : List (List α)} (h : ∀ f ∈ frames, F.Whole f) :
    F.cut frames.flatten = ⟨frames, [], false⟩ := by
  induction frames with
  | nil => exact cut_nil
  | cons f frames ih =>
      rw [List.flatten_cons, (h f List.mem_cons_self).cut_append,
        ih fun g hg => h g (List.mem_cons_of_mem f hg)]

end Framing

end ServerStudy
