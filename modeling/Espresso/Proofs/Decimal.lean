import Mathlib.Algebra.Group.Nat.Defs
import Espresso.Decimal.Notation

namespace Espresso

namespace Decimal

def Plain (c : Char) : Prop := c.isDigit = true ∨ c = '.' ∨ c = 'e' ∨ c = '-'

theorem utf8Size_of_plain {c : Char} (h : Plain c) : c.utf8Size = 1 := by
  rcases h with h | rfl | rfl | rfl
  · simp only [Char.isDigit, Bool.and_eq_true, decide_eq_true_eq] at h
    exact if_pos (UInt32.le_trans h.2 (by decide))
  · decide
  · decide
  · decide

theorem isDigit_of_mem_digitText {n : Nat} {c : Char} (h : c ∈ digitText n) : c.isDigit = true :=
  Nat.isDigit_of_mem_toDigits (by decide) (by decide) h

theorem digitText_ne_nil (n : Nat) : digitText n ≠ [] := Nat.toDigits_ne_nil

theorem length_digitText_le {n k : Nat} (hk : 0 < k) (h : n < 10 ^ k) :
    (digitText n).length ≤ k := (Nat.length_toDigits_le_iff (by decide) hk).mpr h

theorem plain_of_mem_digitText {n : Nat} {c : Char} (h : c ∈ digitText n) : Plain c :=
  .inl (isDigit_of_mem_digitText h)

theorem plain_of_mem_signText {negative : Bool} {c : Char} (h : c ∈ signText negative) :
    Plain c := by
  cases negative with
  | true =>
    obtain rfl := List.mem_singleton.mp h
    exact .inr (.inr (.inr rfl))
  | false => cases h

theorem plain_of_mem_zeros {n : Nat} {c : Char} (h : c ∈ List.replicate n '0') : Plain c := by
  rw [List.eq_of_mem_replicate h]
  exact .inl rfl

variable (d : Decimal)

theorem plain_of_mem_positional {c : Char} (h : c ∈ d.positional) : Plain c := by
  have hzero : Plain '0' := .inl rfl
  have hpoint : Plain '.' := .inr (.inl rfl)
  unfold positional at h
  dsimp only at h
  split at h
  · simp only [List.mem_cons, List.mem_append] at h
    rcases h with rfl | rfl | h | h
    · exact hzero
    · exact hpoint
    · exact plain_of_mem_zeros h
    · exact plain_of_mem_digitText h
  · split at h
    · simp only [List.mem_cons, List.mem_append, List.not_mem_nil, or_false] at h
      rcases h with (h | h) | rfl | rfl
      · exact plain_of_mem_digitText h
      · exact plain_of_mem_zeros h
      · exact hpoint
      · exact hzero
    · simp only [List.mem_cons, List.mem_append] at h
      rcases h with h | rfl | h
      · exact plain_of_mem_digitText (List.mem_of_mem_take h)
      · exact hpoint
      · exact plain_of_mem_digitText (List.mem_of_mem_drop h)

theorem plain_of_mem_scientific {c : Char} (h : c ∈ d.scientific) : Plain c := by
  unfold scientific at h
  simp only [List.mem_cons, List.mem_append] at h
  rcases h with (h | h) | rfl | h | h
  · exact plain_of_mem_digitText (List.mem_of_mem_take h)
  · split at h
    · cases h
    · rcases List.mem_cons.mp h with rfl | h
      · exact .inr (.inl rfl)
      · exact plain_of_mem_digitText (List.mem_of_mem_drop h)
  · exact .inr (.inr (.inl rfl))
  · exact plain_of_mem_signText h
  · exact plain_of_mem_digitText h

theorem plain_of_mem_render {c : Char} (h : c ∈ d.render) : Plain c := by
  unfold render at h
  split at h
  · exact d.plain_of_mem_positional h
  · exact d.plain_of_mem_scientific h

theorem render_eq_cons : ∃ c cs, d.render = c :: cs ∧ c.isDigit = true := by
  obtain ⟨c, cs, hcs⟩ := List.exists_cons_of_ne_nil (digitText_ne_nil d.digits)
  have hc : c.isDigit = true := isDigit_of_mem_digitText (hcs ▸ List.mem_cons_self ..)
  unfold render
  split
  · unfold positional
    dsimp only
    split
    · exact ⟨'0', _, rfl, rfl⟩
    · split
      · rw [hcs]
        exact ⟨c, _, rfl, hc⟩
      · next hpos _ =>
        obtain ⟨n, hn⟩ : ∃ n, (d.leading + 1).toNat = n + 1 :=
          Nat.exists_eq_add_one_of_ne_zero (by omega)
        rw [hcs, hn]
        exact ⟨c, _, rfl, hc⟩
  · unfold scientific
    rw [hcs]
    exact ⟨c, _, rfl, hc⟩

theorem length_render_le {k : Nat} (hk : 0 < k) (hd : d.digits < 10 ^ k)
    (hl : d.leading.natAbs < 1000) : d.render.length ≤ k + 20 := by
  have hdigits := length_digitText_le hk hd
  have hexponent := @length_digitText_le d.leading.natAbs 3 (by decide) hl
  unfold render
  split
  · unfold positional
    dsimp only
    split
    · simp only [List.length_cons, List.length_append, List.length_replicate]
      omega
    · split
      · simp only [List.length_cons, List.length_append, List.length_replicate, List.length_nil]
        omega
      · simp only [List.length_cons, List.length_append, List.length_take, List.length_drop]
        omega
  · have hsign : (signText (d.leading < 0)).length ≤ 1 := by
      unfold signText
      split <;> simp
    unfold scientific
    simp only [List.length_cons, List.length_append, List.length_take]
    split
    · simp only [List.length_nil]
      omega
    · simp only [List.length_cons, List.length_drop]
      omega

theorem digits_dropZeros_le (fuel : Nat) : (d.dropZeros fuel).digits ≤ d.digits := by
  induction fuel generalizing d with
  | zero => exact Nat.le_refl _
  | succ fuel ih =>
    rw [dropZeros]
    split
    · exact Nat.le_trans (ih _) (Nat.div_le_self ..)
    · exact Nat.le_refl _

theorem exponent_dropZeros (fuel : Nat) :
    d.exponent ≤ (d.dropZeros fuel).exponent ∧ (d.dropZeros fuel).exponent ≤ d.exponent + fuel := by
  induction fuel generalizing d with
  | zero => exact ⟨Int.le_refl _, by simp [dropZeros]⟩
  | succ fuel ih =>
    rw [dropZeros]
    split
    · obtain ⟨hlo, hhi⟩ := ih ⟨d.digits / 10, d.exponent + 1⟩
      dsimp only at hlo hhi
      omega
    · omega

end Decimal

namespace Binary

theorem units_lt (x : Single) : x.units < 2 ^ 24 * 2 ^ 254 := by
  have hm : x.magnitude < 2 ^ 31 := x.magnitude_lt
  have hf : x.magnitude % 2 ^ 23 < 2 ^ 23 := Nat.mod_lt _ (by decide)
  show (if x.magnitude / 2 ^ 23 = 0 then x.magnitude % 2 ^ 23
    else (2 ^ 23 + x.magnitude % 2 ^ 23) * 2 ^ (x.magnitude / 2 ^ 23 - 1)) < _
  split
  · exact Nat.lt_of_lt_of_le hf (by decide)
  · have he : 2 ^ (x.magnitude / 2 ^ 23 - 1) ≤ 2 ^ 254 :=
      Nat.pow_le_pow_right (by decide) (by omega)
    have h24 : 2 ^ 23 + x.magnitude % 2 ^ 23 < 2 ^ 24 := by omega
    exact Nat.mul_lt_mul_of_lt_of_le h24 he (Nat.two_pow_pos _)

theorem exact_bounds (x : Single) : x.exact.digits < 2 ^ 24 * 2 ^ 254 * 5 ^ 149 ∧
    -149 ≤ x.exact.exponent ∧ x.exact.exponent ≤ 0 := by
  have hpower : (2 ^ 149 / Nat.gcd x.units (2 ^ 149)).log2 ≤ 149 := by
    by_cases h0 : 2 ^ 149 / Nat.gcd x.units (2 ^ 149) = 0
    · rw [h0]
      exact Nat.zero_le _
    · rw [← Nat.lt_succ_iff, Nat.log2_lt h0]
      exact Nat.lt_of_le_of_lt (Nat.div_le_self ..) (Nat.pow_lt_pow_right (by decide) (by decide))
  have hexact : x.exact = ⟨x.units / Nat.gcd x.units (2 ^ 149) *
      5 ^ (2 ^ 149 / Nat.gcd x.units (2 ^ 149)).log2,
      -((2 ^ 149 / Nat.gcd x.units (2 ^ 149)).log2 : Int)⟩ := rfl
  rw [hexact]
  refine ⟨?_, by dsimp only; omega, by dsimp only; omega⟩
  exact Nat.mul_lt_mul_of_lt_of_le (Nat.lt_of_le_of_lt (Nat.div_le_self ..) x.units_lt)
    (Nat.pow_le_pow_right (by decide) hpower) (Nat.pow_pos (by decide))

theorem withDigits_bounds {x : Single} {count : Nat} {d : Decimal} (h : x.withDigits count = some d) :
    d.digits ≤ x.exact.digits + 1 ∧ x.exact.exponent ≤ d.exponent ∧
      d.exponent ≤ x.exact.exponent + (Decimal.digitText x.exact.digits).length := by
  have hdiv : x.exact.digits / 10 ^ ((Decimal.digitText x.exact.digits).length - count) ≤
      x.exact.digits := Nat.div_le_self ..
  have hd : ∃ digits, d = ⟨digits,
      x.exact.exponent + ((Decimal.digitText x.exact.digits).length - count : Nat)⟩ ∧
      digits ≤ x.exact.digits + 1 := by
    unfold withDigits at h
    dsimp only at h
    split at h
    · split at h
      · split at h
        · exact ⟨_, (Option.some.inj h).symm, by omega⟩
        · exact ⟨_, (Option.some.inj h).symm, by omega⟩
      · exact ⟨_, (Option.some.inj h).symm, by omega⟩
    · split at h
      · exact ⟨_, (Option.some.inj h).symm, by omega⟩
      · cases h
  obtain ⟨digits, rfl, hdigits⟩ := hd
  dsimp only
  omega

theorem shortest_bounds (x : Single) : x.shortest.digits < 10 ^ 243 ∧
    x.shortest.leading.natAbs < 1000 := by
  obtain ⟨hdigits, hlo, hhi⟩ := x.exact_bounds
  have hten : 2 ^ 24 * 2 ^ 254 * 5 ^ 149 < 10 ^ 243 := by decide
  have hlength : (Decimal.digitText x.exact.digits).length ≤ 243 :=
    Decimal.length_digitText_le (by decide) (Nat.lt_trans hdigits hten)
  -- The candidates lie on grids no coarser than the exact value is long.
  have hfound : ∀ d, ((List.range (Decimal.digitText x.exact.digits).length).findSome? fun i =>
      x.withDigits (i + 1)).getD x.exact = d → d.digits ≤ x.exact.digits + 1 ∧
        -149 ≤ d.exponent ∧ d.exponent ≤ 243 := by
    rintro d rfl
    cases hf : (List.range (Decimal.digitText x.exact.digits).length).findSome? fun i =>
        x.withDigits (i + 1) with
    | none =>
      rw [Option.getD_none]
      omega
    | some d =>
      obtain ⟨i, -, hi⟩ := List.exists_of_findSome?_eq_some hf
      have hb := withDigits_bounds hi
      rw [Option.getD_some]
      omega
  obtain ⟨hd, hdlo, hdhi⟩ := hfound _ rfl
  have hzeros := Decimal.digits_dropZeros_le
    (((List.range (Decimal.digitText x.exact.digits).length).findSome? fun i =>
      x.withDigits (i + 1)).getD x.exact) (Decimal.digitText x.exact.digits).length
  obtain ⟨helo, hehi⟩ := Decimal.exponent_dropZeros
    (((List.range (Decimal.digitText x.exact.digits).length).findSome? fun i =>
      x.withDigits (i + 1)).getD x.exact) (Decimal.digitText x.exact.digits).length
  change x.shortest.digits ≤ _ at hzeros
  change _ ≤ x.shortest.exponent at helo
  change x.shortest.exponent ≤ _ at hehi
  have hsmall : x.shortest.digits < 10 ^ 243 :=
    Nat.lt_of_le_of_lt (Nat.le_trans hzeros (Nat.le_trans hd hdigits)) hten
  refine ⟨hsmall, ?_⟩
  have hshort := Decimal.length_digitText_le (by decide) hsmall
  have hpos : 0 < (Decimal.digitText x.shortest.digits).length :=
    List.length_pos_iff.mpr (Decimal.digitText_ne_nil _)
  unfold Decimal.leading
  omega

theorem length_text_le (x : Single) : x.text.length ≤ 264 := by
  obtain ⟨hdigits, hleading⟩ := x.shortest_bounds
  have hrender := x.shortest.length_render_le (by decide) hdigits hleading
  have hsign : (Decimal.signText x.negative).length ≤ 1 := by
    cases x.negative <;> decide
  rw [text, List.length_append]
  omega

end Binary

end Espresso
