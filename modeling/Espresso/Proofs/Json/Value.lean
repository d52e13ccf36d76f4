import Espresso.Json.Reader
import Espresso.Proofs.Json.Number
import Espresso.Proofs.Json.Text

namespace Espresso

namespace Json

variable {cs left digits rest t : List Char} {negative : Bool} {v : Json} {depth : Nat}

theorem suffix_of_digits {α : Type} {a : α} {f : List Char → α}
    (h : (if (spanDigits cs).1 = [] then none else some (f (spanDigits cs).1, (spanDigits cs).2)) =
      some (a, left)) : left <:+ cs := by
  split at h
  · cases h
  · obtain ⟨-, rfl⟩ := Prod.mk.inj (Option.some.inj h)
    rw [spanDigits_eq]
    exact List.dropWhile_suffix _

theorem suffix_of_whole? (h : whole? cs = some (digits, left)) : left <:+ cs := by
  unfold whole? at h
  rw [spanDigits_eq] at h
  dsimp only at h
  split at h
  · cases h
  · obtain ⟨-, rfl⟩ := Prod.mk.inj (Option.some.inj h)
    exact List.dropWhile_suffix _

theorem suffix_of_fraction? (h : fraction? cs = some (digits, left)) : left <:+ cs := by
  unfold fraction? at h
  split at h
  · exact (suffix_of_digits (f := id) h).trans (List.suffix_cons ..)
  · obtain ⟨-, rfl⟩ := Prod.mk.inj (Option.some.inj h)
    exact List.suffix_refl _

theorem suffix_of_exponent? {exponent : Option Int} (h : exponent? cs = some (exponent, left)) :
    left <:+ cs := by
  have hdigits {negative : Bool} {cs : List Char}
      (h : exponentDigits negative cs = some (exponent, left)) : left <:+ cs :=
    suffix_of_digits
      (f := fun ds => some (if negative then -(digitsValue ds : Int) else digitsValue ds)) h
  match cs with
  | [] =>
    obtain ⟨-, rfl⟩ := Prod.mk.inj (Option.some.inj h)
    exact List.suffix_refl _
  | c :: cs =>
    by_cases hc : c = 'e' ∨ c = 'E'
    · match cs with
      | [] =>
        unfold exponent? at h
        dsimp only at h
        rw [if_pos hc] at h
        cases h
      | d :: cs =>
        by_cases hminus : d = '-'
        · subst hminus
          rw [exponent?_minus hc] at h
          exact ((hdigits h).trans (List.suffix_cons ..)).trans (List.suffix_cons ..)
        · by_cases hplus : d = '+'
          · subst hplus
            rw [exponent?_plus hc] at h
            exact ((hdigits h).trans (List.suffix_cons ..)).trans (List.suffix_cons ..)
          · rw [exponent?_bare hc hminus hplus] at h
            exact (hdigits h).trans (List.suffix_cons ..)
    · unfold exponent? at h
      dsimp only at h
      rw [if_neg hc] at h
      obtain ⟨-, rfl⟩ := Prod.mk.inj (Option.some.inj h)
      exact List.suffix_refl _

theorem suffix_of_unsigned? (h : unsigned? negative cs = some (v, left)) : left <:+ cs := by
  obtain ⟨⟨whole, left₁⟩, hwhole, h⟩ := Option.bind_eq_some_iff.mp h
  obtain ⟨⟨fraction, left₂⟩, hfraction, h⟩ := Option.bind_eq_some_iff.mp h
  obtain ⟨⟨exponent, left₃⟩, hexponent, h⟩ := Option.bind_eq_some_iff.mp h
  have hleft : left₃ = left := by
    dsimp only at h
    split at h <;>
      (obtain ⟨w, -, h⟩ := Option.bind_eq_some_iff.mp h
       exact (Prod.mk.inj (Option.some.inj h)).2)
  subst hleft
  exact ((suffix_of_exponent? hexponent).trans (suffix_of_fraction? hfraction)).trans
    (suffix_of_whole? hwhole)

theorem ne_of_isDigit {c d : Char} (hc : isDigit c = true) (hd : isDigit d = false) : c ≠ d := by
  rintro rfl
  rw [hc] at hd
  cases hd

theorem scalar_of_isDigit {c : Char} (hc : isDigit c = true) (cs : List Char) :
    scalar (c :: cs) = unsigned? false (c :: cs) := by
  unfold scalar
  split <;> rename_i heq
  · exact absurd (List.cons.inj heq).1 (ne_of_isDigit hc rfl)
  · exact absurd (List.cons.inj heq).1 (ne_of_isDigit hc rfl)
  · exact absurd (List.cons.inj heq).1 (ne_of_isDigit hc rfl)
  · exact absurd (List.cons.inj heq).1 (ne_of_isDigit hc rfl)
  · exact absurd (List.cons.inj heq).1 (ne_of_isDigit hc rfl)
  · rfl

theorem skipBlank_cons {c : Char} (hc : isBlank c = false) (cs : List Char) :
    skipBlank (c :: cs) = c :: cs := by
  rw [skipBlank, List.dropWhile_cons_of_neg (by simp [hc])]

theorem value_eq_scalar {c : Char} (hc : isBlank c = false) (harray : c ≠ '[') (hobject : c ≠ '{')
    (depth : Nat) (cs : List Char) : value depth (c :: cs) = scalar (c :: cs) := by
  cases depth with
  | zero => rw [value, skipBlank_cons hc]
  | succ depth =>
    rw [value, skipBlank_cons hc]
    split <;> rename_i heq
    · exact absurd (List.cons.inj heq).1 harray
    · exact absurd (List.cons.inj heq).1 hobject
    · rfl

/-- Whether a text stands for a value as a member of an object. -/
def Writes (t : List Char) (v : Json) : Prop :=
  ∀ depth rest, EndsMember rest → value depth (t ++ rest) = some (v, rest)

theorem writes_bool (b : Bool) : Writes (write (bool b)) (bool b) := by
  intro depth rest _
  cases b
  · exact (value_eq_scalar (by decide) (by decide) (by decide) depth _).trans rfl
  · exact (value_eq_scalar (by decide) (by decide) (by decide) depth _).trans rfl

theorem writes_text (s : String) : Writes (quote s) (text s) := by
  intro depth rest _
  have hq : quote s ++ rest = '"' :: (s.toList.flatMap escapeChar ++ '"' :: rest) := by
    simp [quote]
  rw [hq, value_eq_scalar (by decide) (by decide) (by decide)]
  show (quoted _).map _ = _
  rw [quoted_flatMap_escapeChar, Option.map_some]
  dsimp only
  rw [String.ofList_toList]

theorem value_signed {c : Char} (hc : isDigit c = true) (negative : Bool) (depth : Nat)
    (cs : List Char) :
    value depth (Decimal.signText negative ++ c :: cs) = unsigned? negative (c :: cs) := by
  cases negative with
  | true => exact (value_eq_scalar (by decide) (by decide) (by decide) depth _).trans rfl
  | false =>
    have hblank : isBlank c = false := by
      simp only [isBlank, Bool.or_eq_false_iff, decide_eq_false_iff_not]
      exact ⟨⟨⟨ne_of_isDigit hc rfl, ne_of_isDigit hc rfl⟩, ne_of_isDigit hc rfl⟩, ne_of_isDigit hc rfl⟩
    have hvalue := value_eq_scalar hblank (ne_of_isDigit hc rfl) (ne_of_isDigit hc rfl) depth
    exact (hvalue _).trans (scalar_of_isDigit hc cs)

theorem writes_int {n : Int} (h : n.natAbs ≤ greatestNegative) : Writes (write (int n)) (int n) := by
  intro depth rest hr
  show value depth (intText n ++ rest) = _
  have hu := unsigned?_intText h
  obtain ⟨c, cs, hcs⟩ : ∃ c cs, Decimal.digitText n.natAbs = c :: cs :=
    List.exists_cons_of_ne_nil Nat.toDigits_ne_nil
  have hc : isDigit c = true :=
    Decimal.isDigit_of_mem_digitText (hcs ▸ List.mem_cons_self ..)
  rw [hcs] at hu
  rw [intText, List.append_assoc, hcs, List.cons_append, value_signed hc, ← List.cons_append,
    unsigned?_append hr hu]
  rfl

/-- Whether the stored text of a float reads back to that float. -/
def Legible (x : Single) : Prop :=
  (parse? storedDepth (String.ofList (floatText x))).bind single? = some x

instance (x : Single) : Decidable (Legible x) :=
  inferInstanceAs (Decidable (_ = some x))

theorem isBlank_of_plain {c : Char} (h : Decimal.Plain c) : isBlank c = false := by
  have hblank : isBlank c = (c = ' ' || c = '\t' || c = '\n' || c = '\r') := rfl
  simp only [hblank, Bool.or_eq_false_iff, decide_eq_false_iff_not]
  rcases h with h | rfl | rfl | rfl
  · exact ⟨⟨⟨ne_of_isDigit h rfl, ne_of_isDigit h rfl⟩, ne_of_isDigit h rfl⟩, ne_of_isDigit h rfl⟩
  · decide
  · decide
  · decide

theorem writes_float {x : Single} (hf : x.isFinite = true) (h : Legible x) :
    ∃ v, v.single? = some x ∧ Writes (floatText x) v := by
  obtain ⟨c, cs, hcs, hc⟩ := x.shortest.render_eq_cons
  have htext : floatText x = Decimal.signText x.negative ++ c :: cs := by
    rw [floatText, if_pos hf, Binary.text, hcs]
  obtain ⟨v, hv, hx⟩ := Option.bind_eq_some_iff.mp h
  rw [parse?, String.toList_ofList, htext, value_signed hc] at hv
  cases hu : unsigned? x.negative (c :: cs) with
  | none =>
    rw [hu] at hv
    cases hv
  | some p =>
    obtain ⟨w, left⟩ := p
    rw [hu] at hv
    dsimp only at hv
    split at hv
    · next hblank =>
      obtain rfl := Option.some.inj hv
      -- The text of a number has no blanks, so nothing is left of it.
      have hleft : left = [] := by
        cases left with
        | nil => rfl
        | cons d left =>
          have hd : d ∈ x.shortest.render := by
            rw [hcs]
            exact (suffix_of_unsigned? hu).subset (List.mem_cons_self ..)
          rw [skipBlank_cons (isBlank_of_plain (Decimal.plain_of_mem_render _ hd))] at hblank
          cases hblank
      subst hleft
      refine ⟨w, hx, ?_⟩
      intro depth rest hr
      rw [htext, List.append_assoc, List.cons_append, value_signed hc, ← List.cons_append,
        unsigned?_append hr hu, List.nil_append]
    · cases hv

end Json

end Espresso
