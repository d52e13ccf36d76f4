import Espresso.Binary.Arithmetic

namespace Espresso

namespace Binary

variable {F G : BinaryFormat} {s c d : Nat}

structure Significand (F : BinaryFormat) (s c : Nat) : Prop where
  lt : c < 2 ^ (F.fractionBits + 1)
  full : s = 0 ∨ 2 ^ F.fractionBits ≤ c

theorem exists_significand (x : Binary F) :
    ∃ s c, Significand F s c ∧ x.magnitude = s * 2 ^ F.fractionBits + c := by
  have hf := Nat.mod_lt x.magnitude (Nat.two_pow_pos F.fractionBits)
  have hx := Nat.div_add_mod x.magnitude (2 ^ F.fractionBits)
  have hp := Nat.pow_succ 2 F.fractionBits
  rcases Nat.eq_zero_or_pos (x.magnitude / 2 ^ F.fractionBits) with he | he
  · refine ⟨0, x.magnitude % 2 ^ F.fractionBits, ⟨by omega, .inl rfl⟩, ?_⟩
    rw [he] at hx
    omega
  · obtain ⟨s, hs⟩ := Nat.exists_eq_add_one_of_ne_zero (Nat.ne_of_gt he)
    refine ⟨s, 2 ^ F.fractionBits + x.magnitude % 2 ^ F.fractionBits, ⟨by omega, .inr (by omega)⟩, ?_⟩
    rw [hs, Nat.mul_comm, Nat.succ_mul] at hx
    omega

namespace Significand

theorem units_eq (h : Significand F s c) {x : Binary F}
    (hx : x.magnitude = s * 2 ^ F.fractionBits + c) : x.units = c * 2 ^ s := by
  have hp := Nat.two_pow_pos F.fractionBits
  have hlt := h.lt
  rw [Nat.pow_succ] at hlt
  unfold units
  dsimp only
  rcases Nat.lt_or_ge c (2 ^ F.fractionBits) with hc | hc
  · obtain rfl := h.full.resolve_right (Nat.not_le.mpr hc)
    rw [hx, Nat.zero_mul, Nat.zero_add, Nat.div_eq_of_lt hc, Nat.mod_eq_of_lt hc, if_pos rfl,
      Nat.pow_zero, Nat.mul_one]
  · obtain ⟨f, rfl⟩ := Nat.exists_eq_add_of_le hc
    have hf : f < 2 ^ F.fractionBits := by omega
    have hsplit : x.magnitude = 2 ^ F.fractionBits * (s + 1) + f := by
      rw [hx, Nat.mul_add, Nat.mul_comm s]
      omega
    rw [hsplit, Nat.mul_add_div hp, Nat.div_eq_of_lt hf, Nat.mul_add_mod, Nat.mod_eq_of_lt hf,
      Nat.add_zero, if_neg (Nat.succ_ne_zero s), Nat.add_sub_cancel]

theorem log2_sub (h : Significand F s c) : (c * 2 ^ s).log2 - F.fractionBits = s := by
  rcases Nat.eq_zero_or_pos c with rfl | hc
  · rw [Nat.zero_mul, Nat.log2_zero, Nat.zero_sub]
    exact (h.full.resolve_right (Nat.not_le.mpr (Nat.two_pow_pos _))).symm
  · have hne : c * 2 ^ s ≠ 0 := Nat.ne_of_gt (Nat.mul_pos hc (Nat.two_pow_pos s))
    have hlt : (c * 2 ^ s).log2 < F.fractionBits + 1 + s := by
      rw [Nat.log2_lt hne, Nat.pow_add]
      exact Nat.mul_lt_mul_of_pos_right h.lt (Nat.two_pow_pos s)
    rcases h.full with rfl | hfull
    · omega
    · have hle : F.fractionBits + s ≤ (c * 2 ^ s).log2 := by
        rw [Nat.le_log2 hne, Nat.pow_add]
        exact Nat.mul_le_mul_right _ hfull
      omega

theorem nearestMagnitude_eq (h : Significand F s c) (hd : 0 < d) :
    nearestMagnitude F (c * 2 ^ s * d) d = min (s * 2 ^ F.fractionBits + c) F.infinity := by
  have hpos : 0 < d * 2 ^ s := Nat.mul_pos hd (Nat.two_pow_pos s)
  have hcomm : c * 2 ^ s * d = c * (d * 2 ^ s) := by rw [Nat.mul_assoc, Nat.mul_comm (2 ^ s)]
  unfold nearestMagnitude
  rw [Nat.mul_div_cancel _ hd, h.log2_sub, hcomm]
  dsimp only
  rw [nearest_mul _ hpos]

theorem exists_widened (h : Significand F s c) {k : Nat} (hF : F.fractionBits ≤ G.fractionBits)
    (hk : G.fractionBits ≤ k) :
    ∃ t e, Significand G t e ∧ e * 2 ^ t = c * 2 ^ s * 2 ^ k ∧ t ≤ s + k := by
  rcases Nat.eq_zero_or_pos c with rfl | hc
  · exact ⟨0, 0, ⟨Nat.two_pow_pos _, .inl rfl⟩, by simp, Nat.zero_le _⟩
  · have hne : c ≠ 0 := Nat.ne_of_gt hc
    have hlog : c.log2 ≤ F.fractionBits := Nat.lt_succ_iff.mp ((Nat.log2_lt hne).mpr h.lt)
    -- The scale goes down by the `j` places that the significand has to spare in the wider format.
    obtain ⟨j, hj⟩ := Nat.exists_eq_add_of_le (Nat.le_trans hlog hF)
    refine ⟨s + k - j, c * 2 ^ j, ⟨?_, .inr ?_⟩, ?_, Nat.sub_le _ _⟩
    · rw [hj, Nat.add_right_comm, Nat.pow_add]
      exact Nat.mul_lt_mul_of_pos_right Nat.lt_log2_self (Nat.two_pow_pos j)
    · rw [hj, Nat.pow_add]
      exact Nat.mul_le_mul_right _ (Nat.log2_self_le hne)
    · rw [Nat.mul_assoc, ← Nat.pow_add, Nat.mul_assoc, ← Nat.pow_add]
      congr 2
      omega

end Significand

theorem ofUnits_units {x : Binary F} (hx : x.isFinite = true) (hd : 0 < d) :
    ofUnits x.negative (x.units * d) d = x := by
  obtain ⟨s, c, h, hm⟩ := x.exists_significand
  have hlt : x.magnitude < F.infinity := of_decide_eq_true hx
  have hmagnitude : nearestMagnitude F (x.units * d) d = x.magnitude := by
    rw [h.units_eq hm, h.nearestMagnitude_eq hd, ← hm, Nat.min_eq_left (Nat.le_of_lt hlt)]
  obtain ⟨negative, magnitude, hlt⟩ := x
  simp only [ofUnits, hmagnitude]

theorem convert_of_finite {x : Binary F} (hx : x.isFinite = true) :
    (x.convert : Binary G) =
      ofUnits x.negative (x.units * 2 ^ G.unitPower) (2 ^ F.unitPower) := by
  have hlt : x.magnitude < F.infinity := of_decide_eq_true hx
  have hnan : ¬x.isNaN = true := fun h => Nat.lt_asymm hlt (of_decide_eq_true h)
  have hinf : ¬x.isInfinite = true := fun h => Nat.ne_of_lt hlt (of_decide_eq_true h)
  rw [convert, if_neg hnan, if_neg hinf]

theorem units_convert {x : Single} (hx : x.isFinite = true) {k : Nat}
    (hk : BinaryFormat.double.unitPower = k + BinaryFormat.single.unitPower) :
    (x.convert : Double).isFinite = true ∧ (x.convert : Double).units = x.units * 2 ^ k := by
  obtain ⟨s, c, h, hm⟩ := x.exists_significand
  have hfinite : x.magnitude < 255 * 2 ^ 23 := of_decide_eq_true hx
  change x.magnitude = s * 2 ^ 23 + c at hm
  have hk' : 1074 = k + 149 := hk
  have hwide : BinaryFormat.double.fractionBits ≤ k := by
    show 52 ≤ k
    omega
  obtain ⟨t, e, hw, he, ht⟩ := h.exists_widened (by decide) hwide
  have hlt : e < 2 ^ 53 := hw.lt
  have hbound : t * 2 ^ 52 + e < 2047 * 2 ^ 52 := by omega
  have hmagnitude : (x.convert : Double).magnitude = t * 2 ^ 52 + e := by
    have hnum : x.units * 2 ^ BinaryFormat.double.unitPower =
        e * 2 ^ t * 2 ^ BinaryFormat.single.unitPower := by
      rw [h.units_eq hm, he, hk, Nat.pow_add, ← Nat.mul_assoc]
    rw [convert_of_finite hx, hnum]
    exact (hw.nearestMagnitude_eq (Nat.two_pow_pos _)).trans (Nat.min_eq_left (Nat.le_of_lt hbound))
  refine ⟨decide_eq_true ?_, ?_⟩
  · rw [hmagnitude]
    exact hbound
  · rw [hw.units_eq hmagnitude, he, h.units_eq hm]

theorem negative_convert (x : Binary F) : (x.convert : Binary G).negative = x.negative := by
  unfold convert
  split
  · rfl
  · split <;> rfl

theorem convert_convert {x : Single} (hx : x.isFinite = true) :
    ((x.convert : Double).convert : Single) = x := by
  obtain ⟨k, hk⟩ : ∃ k, BinaryFormat.double.unitPower = k + BinaryFormat.single.unitPower :=
    ⟨925, rfl⟩
  obtain ⟨hfinite, hunits⟩ := units_convert hx hk
  rw [convert_of_finite hfinite, negative_convert, hunits, Nat.mul_assoc, ← Nat.pow_add, ← hk]
  exact ofUnits_units hx (Nat.two_pow_pos _)

section Order

variable {x y z : Binary F}

theorem isNaN_eq_false_of_lt (h : x.lt y = true) : x.isNaN = false ∧ y.isNaN = false := by
  simp only [lt, Bool.and_eq_true, Bool.not_eq_true'] at h
  exact h.1

theorem le_refl (hx : x.isNaN = false) : x.le x = true := by simp [le, hx]

theorem le_of_lt (h : x.lt y = true) : x.le y = true := by
  simp only [lt, le, Bool.and_eq_true, decide_eq_true_eq] at h ⊢
  exact ⟨h.1, by omega⟩

theorem le_of_not_lt (hx : x.isNaN = false) (hy : y.isNaN = false) (h : x.lt y = false) :
    y.le x = true := by
  simpa [lt, le, hx, hy] using h

theorem le_trans (h : x.le y = true) (h' : y.le z = true) : x.le z = true := by
  simp only [le, Bool.and_eq_true, decide_eq_true_eq] at h h' ⊢
  exact ⟨⟨h.1.1, h'.1.2⟩, by omega⟩

theorem lt_of_lt_of_le (h : x.lt y = true) (h' : y.le z = true) : x.lt z = true := by
  simp only [lt, le, Bool.and_eq_true, decide_eq_true_eq] at h h' ⊢
  exact ⟨⟨h.1.1, h'.1.2⟩, by omega⟩

def greatest (top : Binary F) (xs : List (Binary F)) : Binary F :=
  xs.foldl (fun top x => if top.lt x then x else top) top

theorem le_greatest {top : Binary F} (ht : top.isNaN = false) (xs : List (Binary F)) :
    top.le (greatest top xs) = true ∧
      ∀ x ∈ xs, x.isNaN = false → x.le (greatest top xs) = true := by
  induction xs generalizing top with
  | nil => exact ⟨le_refl ht, nofun⟩
  | cons y xs ih =>
    have hstep : greatest top (y :: xs) = greatest (if top.lt y then y else top) xs := rfl
    rw [hstep]
    by_cases hlt : top.lt y = true
    · rw [if_pos hlt]
      obtain ⟨htop, hxs⟩ := ih (isNaN_eq_false_of_lt hlt).2
      refine ⟨le_trans (le_of_lt hlt) htop, ?_⟩
      rintro x (_ | ⟨_, hx⟩) hn
      · exact htop
      · exact hxs x hx hn
    · rw [if_neg hlt]
      obtain ⟨htop, hxs⟩ := ih ht
      refine ⟨htop, ?_⟩
      rintro x (_ | ⟨_, hx⟩) hn
      · exact le_trans (le_of_not_lt ht hn (by simpa using hlt)) htop
      · exact hxs x hx hn

theorem greatest_mem (top : Binary F) (xs : List (Binary F)) :
    greatest top xs = top ∨ top.lt (greatest top xs) = true ∧ greatest top xs ∈ xs := by
  induction xs generalizing top with
  | nil => exact .inl rfl
  | cons y xs ih =>
    have hstep : greatest top (y :: xs) = greatest (if top.lt y then y else top) xs := rfl
    rw [hstep]
    by_cases hlt : top.lt y = true
    · rw [if_pos hlt]
      right
      have hle := (le_greatest (isNaN_eq_false_of_lt hlt).2 xs).1
      refine ⟨lt_of_lt_of_le hlt hle, ?_⟩
      rcases ih y with h | ⟨-, h⟩
      · rw [h]
        exact List.mem_cons_self ..
      · exact List.mem_cons_of_mem _ h
    · rw [if_neg hlt]
      exact (ih top).imp_right fun h => ⟨h.1, List.mem_cons_of_mem _ h.2⟩

end Order

end Binary

end Espresso
