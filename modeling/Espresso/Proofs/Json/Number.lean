import Mathlib.Data.List.TakeDrop
import Mathlib.Data.List.TakeWhile
import Espresso.Json.Parser
import Espresso.Json.Printer
import Espresso.Proofs.Decimal

namespace Espresso.Json

def EndsMember (rest : List Char) : Prop := ∃ c tail, rest = c :: tail ∧ (c = ',' ∨ c = '}')

theorem spanDigits_eq (cs : List Char) :
    spanDigits cs = (cs.takeWhile isDigit, cs.dropWhile isDigit) :=
  List.span_eq_takeWhile_dropWhile ..

theorem spanDigits_append {rest : List Char} (hr : EndsMember rest) (cs : List Char) :
    spanDigits (cs ++ rest) = ((spanDigits cs).1, (spanDigits cs).2 ++ rest) := by
  obtain ⟨c, tail, rfl, hc⟩ := hr
  have hd : isDigit c = false := by rcases hc with rfl | rfl <;> rfl
  simp only [spanDigits_eq]
  induction cs with
  | nil => simp [hd]
  | cons d cs ih =>
    by_cases h : isDigit d <;> simp_all

theorem whole?_append {rest cs digits left : List Char} (hr : EndsMember rest)
    (h : whole? cs = some (digits, left)) : whole? (cs ++ rest) = some (digits, left ++ rest) := by
  unfold whole? at h ⊢
  rw [spanDigits_append hr]
  dsimp only at h ⊢
  split at h
  · cases h
  · next hd =>
    rw [if_neg hd]
    obtain ⟨rfl, rfl⟩ := Prod.mk.inj (Option.some.inj h)
    rfl

theorem digits_append {α : Type} {rest cs left : List Char} {a : α} (hr : EndsMember rest)
    (f : List Char → α)
    (h : (if (spanDigits cs).1 = [] then none else some (f (spanDigits cs).1, (spanDigits cs).2)) =
      some (a, left)) :
    (if (spanDigits (cs ++ rest)).1 = [] then none
      else some (f (spanDigits (cs ++ rest)).1, (spanDigits (cs ++ rest)).2)) =
        some (a, left ++ rest) := by
  rw [spanDigits_append hr]
  split at h
  · cases h
  · next hd =>
    rw [if_neg hd]
    obtain ⟨rfl, rfl⟩ := Prod.mk.inj (Option.some.inj h)
    rfl

theorem fraction?_append {rest cs digits left : List Char} (hr : EndsMember rest)
    (h : fraction? cs = some (digits, left)) :
    fraction? (cs ++ rest) = some (digits, left ++ rest) := by
  have hskip (cs : List Char) (hcs : ∀ ds, cs ≠ '.' :: ds) : fraction? cs = some ([], cs) := by
    rw [fraction?]
    exact hcs
  cases cs with
  | nil =>
    obtain ⟨rfl, rfl⟩ := Prod.mk.inj (Option.some.inj ((hskip [] (by simp)).symm.trans h))
    apply hskip
    obtain ⟨c, tail, rfl, rfl | rfl⟩ := hr <;> simp
  | cons c cs =>
    by_cases hc : c = '.'
    · subst hc
      exact digits_append hr id h
    · rw [hskip (c :: cs) (by simp [hc])] at h
      obtain ⟨rfl, rfl⟩ := Prod.mk.inj (Option.some.inj h)
      exact hskip _ (by simp [hc])

def exponentDigits (negative : Bool) (cs : List Char) : Option (Option Int × List Char) :=
  if (spanDigits cs).1 = [] then none
  else some (some (if negative then -(digitsValue (spanDigits cs).1 : Int)
    else digitsValue (spanDigits cs).1), (spanDigits cs).2)

theorem exponentDigits_append {negative : Bool} {rest cs left : List Char} {exponent : Option Int}
    (hr : EndsMember rest) (h : exponentDigits negative cs = some (exponent, left)) :
    exponentDigits negative (cs ++ rest) = some (exponent, left ++ rest) :=
  digits_append hr (fun ds => some (if negative then -(digitsValue ds : Int) else digitsValue ds)) h

theorem exponent?_minus {c : Char} (hc : c = 'e' ∨ c = 'E') (cs : List Char) :
    exponent? (c :: '-' :: cs) = exponentDigits true cs := by
  rw [exponent?, if_pos hc]
  rfl

theorem exponent?_plus {c : Char} (hc : c = 'e' ∨ c = 'E') (cs : List Char) :
    exponent? (c :: '+' :: cs) = exponentDigits false cs := by
  rw [exponent?, if_pos hc]
  rfl

theorem exponent?_bare {c d : Char} (hc : c = 'e' ∨ c = 'E') (hminus : d ≠ '-') (hplus : d ≠ '+')
    (cs : List Char) : exponent? (c :: d :: cs) = exponentDigits false (d :: cs) := by
  rw [exponent?, if_pos hc]
  · rfl
  · intro _ h
    exact hminus (List.cons.inj h).1
  · intro _ h
    exact hplus (List.cons.inj h).1

theorem exponent?_append {rest cs left : List Char} {exponent : Option Int} (hr : EndsMember rest)
    (h : exponent? cs = some (exponent, left)) :
    exponent? (cs ++ rest) = some (exponent, left ++ rest) := by
  have none_marked (c : Char) (cs : List Char) (hc : ¬(c = 'e' ∨ c = 'E')) :
      exponent? (c :: cs) = some (none, c :: cs) := by
    unfold exponent?
    exact if_neg hc
  cases cs with
  | nil =>
    obtain ⟨rfl, rfl⟩ := Prod.mk.inj (Option.some.inj h)
    obtain ⟨c, tail, rfl, rfl | rfl⟩ := hr <;> exact none_marked _ _ (by decide)
  | cons c cs =>
    by_cases hc : c = 'e' ∨ c = 'E'
    · -- A mark at the end is refused, so a sign stands in the text itself.
      cases cs with
      | nil =>
        unfold exponent? at h
        dsimp only at h
        rw [if_pos hc] at h
        cases h
      | cons d cs =>
        simp only [List.cons_append]
        by_cases hminus : d = '-'
        · subst hminus
          rw [exponent?_minus hc] at h ⊢
          exact exponentDigits_append hr h
        · by_cases hplus : d = '+'
          · subst hplus
            rw [exponent?_plus hc] at h ⊢
            exact exponentDigits_append hr h
          · rw [exponent?_bare hc hminus hplus] at h ⊢
            exact exponentDigits_append hr h
    · rw [none_marked c cs hc] at h
      obtain ⟨rfl, rfl⟩ := Prod.mk.inj (Option.some.inj h)
      exact none_marked c (cs ++ rest) hc

theorem unsigned?_append {negative : Bool} {rest cs left : List Char} {v : Json}
    (hr : EndsMember rest) (h : unsigned? negative cs = some (v, left)) :
    unsigned? negative (cs ++ rest) = some (v, left ++ rest) := by
  obtain ⟨⟨whole, left₁⟩, hwhole, h⟩ := Option.bind_eq_some_iff.mp h
  obtain ⟨⟨fraction, left₂⟩, hfraction, h⟩ := Option.bind_eq_some_iff.mp h
  obtain ⟨⟨exponent, left₃⟩, hexponent, h⟩ := Option.bind_eq_some_iff.mp h
  rw [unsigned?, whole?_append hr hwhole]
  show (fraction? (left₁ ++ rest)).bind _ = _
  rw [fraction?_append hr hfraction]
  show (exponent? (left₂ ++ rest)).bind _ = _
  rw [exponent?_append hr hexponent]
  dsimp only [Option.bind] at h ⊢
  split at h <;> rename_i hplain
  · obtain ⟨w, hw, h⟩ := Option.bind_eq_some_iff.mp h
    obtain ⟨rfl, rfl⟩ := Prod.mk.inj (Option.some.inj h)
    rw [if_pos hplain, hw]
    rfl
  · obtain ⟨w, hw, h⟩ := Option.bind_eq_some_iff.mp h
    obtain ⟨rfl, rfl⟩ := Prod.mk.inj (Option.some.inj h)
    rw [if_neg hplain, hw]
    rfl

theorem spanDigits_digitText (n : Nat) :
    spanDigits (Decimal.digitText n) = (Decimal.digitText n, []) := by
  have hdigits : ∀ c ∈ Decimal.digitText n, isDigit c = true :=
    fun c hc => Decimal.isDigit_of_mem_digitText hc
  rw [spanDigits_eq, List.takeWhile_eq_self_iff.mpr hdigits, List.dropWhile_eq_nil_iff.mpr hdigits]

theorem head?_digitText (n : Nat) (h : (Decimal.digitText n).head? = some '0') :
    (Decimal.digitText n).length = 1 := by
  have hlead (n : Nat) (hn : n ≠ 0) : (Decimal.digitText n).head? ≠ some '0' := by
    induction n using Nat.strongRecOn with
    | ind n ih =>
      rw [Decimal.digitText, Nat.toDigits_eq_if (by decide)]
      split
      · next hlt => simpa using hn
      · next hge =>
        have hq := ih (n / 10) (by omega) (by omega)
        obtain ⟨c, hc⟩ := Option.ne_none_iff_exists'.mp
          (mt List.head?_eq_none_iff.mp (Nat.toDigits_ne_nil (n := n / 10) (b := 10)))
        rw [List.head?_append, hc]
        rw [Decimal.digitText, hc] at hq
        exact hq
  by_cases hn : n = 0
  · subst hn
    rfl
  · exact absurd h (hlead n hn)

theorem whole?_digitText (n : Nat) :
    whole? (Decimal.digitText n) = some (Decimal.digitText n, []) := by
  unfold whole?
  rw [spanDigits_digitText]
  dsimp only
  rw [if_neg]
  rintro (h | ⟨h, hl⟩)
  · exact Nat.toDigits_ne_nil h
  · exact hl (head?_digitText n h)

theorem gatherWhole_eq {significand : Nat} {cs : List Char}
    (h : Nat.ofDigitChars 10 cs significand < significandBound) :
    gatherWhole significand cs = (Nat.ofDigitChars 10 cs significand, 0) := by
  have hle (cs : List Char) (s : Nat) : s ≤ Nat.ofDigitChars 10 cs s := by
    induction cs generalizing s with
    | nil => exact Nat.le_of_eq Nat.ofDigitChars_nil.symm
    | cons c cs ih =>
      rw [Nat.ofDigitChars_cons]
      exact Nat.le_trans (by omega) (ih _)
  induction cs generalizing significand with
  | nil => rw [gatherWhole, Nat.ofDigitChars_nil]
  | cons c cs ih =>
    have hnext : significand * 10 + digitValue c = 10 * significand + (c.toNat - '0'.toNat) := by
      rw [digitValue]
      omega
    rw [Nat.ofDigitChars_cons] at h ⊢
    rw [gatherWhole, hnext, if_pos (Nat.lt_of_le_of_lt (hle cs _) h), ih h]

theorem gatherWhole_digitText {n : Nat} (h : n < significandBound) :
    gatherWhole 0 (Decimal.digitText n) = (n, 0) := by
  have hn : Nat.ofDigitChars 10 (Decimal.digitText n) 0 = n := Nat.ofDigitChars_ten_toDigits
  rw [gatherWhole_eq (by rwa [hn]), hn]

theorem unsigned?_digitText (negative : Bool) (n : Nat) :
    unsigned? negative (Decimal.digitText n) =
      (ofWhole negative (Decimal.digitText n)).map fun v => (v, []) := by
  rw [unsigned?, whole?_digitText]
  show Option.bind (ofWhole negative (Decimal.digitText n)) _ = _
  cases ofWhole negative (Decimal.digitText n) <;> rfl

theorem unsigned?_intText {n : Int} (h : n.natAbs ≤ greatestNegative) :
    unsigned? (n < 0) (Decimal.digitText n.natAbs) = some (int n, []) := by
  have hb : n.natAbs < significandBound := Nat.lt_of_le_of_lt h (by decide)
  rw [unsigned?_digitText, ofWhole, gatherWhole_digitText hb]
  by_cases hn : n < 0
  · have h0 : ¬(n.natAbs = 0 ∨ greatestNegative < n.natAbs) := by omega
    simp only [hn, decide_true, ne_eq, not_true_eq_false, if_false, if_true, h0, Option.map_some]
    rw [show -(n.natAbs : Int) = n by omega]
  · simp only [hn, decide_false, ne_eq, not_true_eq_false, if_false, Bool.false_eq_true,
      Option.map_some]
    rw [show (n.natAbs : Int) = n by omega]

end Espresso.Json
