import Mathlib.Data.List.Basic

namespace Espresso

variable {α β : Type} [DecidableEq β] {key : α → β} {entries : List α}

theorem eraseP_eq_filter (h : entries.Pairwise fun a b => key a ≠ key b) (k : β) :
    (entries.eraseP fun a => key a = k) = entries.filter fun a => key a ≠ k := by
  induction entries with
  | nil => rfl
  | cons a entries ih =>
    obtain ⟨hfirst, hrest⟩ := List.pairwise_cons.mp h
    by_cases ha : key a = k
    · have hall : ∀ b ∈ entries, decide (key b ≠ k) = true := by
        intro b hb
        exact decide_eq_true fun hk => hfirst b hb (ha.trans hk.symm)
      rw [List.eraseP_cons_of_pos (by simpa using ha), List.filter_cons_of_neg (by simpa using ha),
        List.filter_eq_self.mpr hall]
    · rw [List.eraseP_cons_of_neg (by simpa using ha), List.filter_cons_of_pos (by simpa using ha),
        ih hrest]

end Espresso
