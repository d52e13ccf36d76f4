import Espresso.Json.Parser
import Espresso.Json.Printer
import Espresso.Proofs.Text

namespace Espresso

namespace Json

theorem hexValue?_hexDigit {n : Nat} (hn : n < 16) : hexValue? (hexDigit n) = some n := by
  have h : ∀ n : Fin 16, hexValue? (hexDigit n) = some n.val := by decide
  exact h ⟨n, hn⟩

theorem hexUnit?_hexDigit {high low : Nat} (hh : high < 16) (hl : low < 16) :
    hexUnit? '0' '0' (hexDigit high) (hexDigit low) = some (high * 16 + low) := by
  have h0 : hexValue? '0' = some 0 := rfl
  simp [hexUnit?, h0, hexValue?_hexDigit hh, hexValue?_hexDigit hl]

theorem quoted_escapeChar (c : Char) (rest : List Char) :
    quoted (escapeChar c ++ rest) = (quoted rest).map (prepend c) := by
  have escaped (e d : Char) (he : e ≠ 'u') (hd : escape? e = some d) :
      quoted ('\\' :: e :: rest) = (quoted rest).map (prepend d) := by
    rw [quoted, hd]
    intro _ _ _ _ _ hu
    exact absurd hu he
  unfold escapeChar
  split
  · exact escaped '"' '"' (by decide) rfl
  · exact escaped '\\' '\\' (by decide) rfl
  · exact escaped 'b' '\x08' (by decide) rfl
  · exact escaped 'f' '\x0c' (by decide) rfl
  · exact escaped 'n' '\n' (by decide) rfl
  · exact escaped 'r' '\r' (by decide) rfl
  · exact escaped 't' '\t' (by decide) rfl
  · next hquote hslash _ _ _ _ _ =>
    split
    · next hlow =>
      have hlt : c.toNat < 32 := by
        rw [Char.toNat]
        exact UInt32.lt_iff_toNat_lt.mp hlow
      have hunit := @hexUnit?_hexDigit (c.toNat / 16) (c.toNat % 16) (by omega) (by omega)
      rw [show c.toNat / 16 * 16 + c.toNat % 16 = c.toNat by omega] at hunit
      have hhigh : isHighHalf c.toNat = false := by simp [isHighHalf]; omega
      have hlow' : isLowHalf c.toNat = false := by simp [isLowHalf]; omega
      show quoted ('\\' :: 'u' :: '0' :: '0' :: _ :: _ :: rest) = _
      rw [quoted, hunit]
      simp only [hhigh, hlow', Bool.false_eq_true, if_false, Char.ofNat_toNat]
    · next hlow =>
      rw [List.singleton_append, quoted, if_neg]
      · rintro (hc | hc)
        · exact hlow hc
        · exact hslash hc
      · exact hquote
      · intro _ _ _ _ _ hc
        exact absurd hc hslash
      · intro _ _ hc
        exact absurd hc hslash

theorem quoted_flatMap_escapeChar (cs rest : List Char) :
    quoted (cs.flatMap escapeChar ++ '"' :: rest) = some (cs, rest) := by
  induction cs with
  | nil => rw [List.flatMap_nil, List.nil_append, quoted]
  | cons c cs ih =>
    rw [List.flatMap_cons, List.append_assoc, quoted_escapeChar, ih]
    rfl

theorem utf8Size_hexDigit {n : Nat} (hn : n < 16) : (hexDigit n).utf8Size = 1 := by
  have h : ∀ n : Fin 16, (hexDigit n).utf8Size = 1 := by decide
  exact h ⟨n, hn⟩

theorem size_escapeChar_le (c : Char) : Text.size (escapeChar c) ≤ 6 * c.utf8Size := by
  have hpos := c.utf8Size_pos
  unfold escapeChar
  split
  · decide
  · decide
  · decide
  · decide
  · decide
  · decide
  · decide
  · split
    · next hlow =>
      have hlt : c.toNat < 32 := UInt32.lt_iff_toNat_lt.mp hlow
      have h1 := @utf8Size_hexDigit (c.toNat / 16) (by omega)
      have h2 := @utf8Size_hexDigit (c.toNat % 16) (by omega)
      have h3 : '\\'.utf8Size = 1 ∧ 'u'.utf8Size = 1 ∧ '0'.utf8Size = 1 := by decide
      simp only [Text.size, h1, h2, h3]
      omega
    · simp only [Text.size]
      omega

theorem size_quote_le (s : String) : Text.size (quote s) ≤ 6 * s.utf8ByteSize + 2 := by
  have hchars (cs : List Char) : Text.size (cs.flatMap escapeChar) ≤ 6 * Text.size cs := by
    induction cs with
    | nil => exact Nat.le_refl _
    | cons c cs ih =>
      have hc := size_escapeChar_le c
      rw [List.flatMap_cons, Text.size_append, Text.size]
      omega
  have hs : Text.size s.toList = s.utf8ByteSize := by
    rw [← Text.utf8ByteSize_ofList, String.ofList_toList]
  have hq : '"'.utf8Size = 1 := by decide
  have h := hchars s.toList
  rw [quote, Text.size, Text.size_append, Text.size, Text.size, hq]
  omega

end Json

end Espresso
