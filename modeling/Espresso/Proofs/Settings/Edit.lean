import Espresso.Proofs.Settings.Persistence
import Espresso.Settings.Edit

namespace Espresso.Settings

variable {n : Section}

theorem get_patchAll_eq (s : Settings) (n : Section) (document : Json) :
    (s.patchAll document).get n = (documentsFor n document).foldl n.schema.patch (s.get n) := by
  unfold patchAll documentsFor
  generalize document.members?.getD [] = members
  induction members generalizing s with
  | nil => rfl
  | cons p members ih =>
    obtain ⟨name, fields⟩ := p
    rw [List.foldl_cons, ih, List.filterMap_cons]
    dsimp only
    by_cases hn : name = n.name
    · rw [Section.ofName?_eq_some.mpr hn, if_pos hn, List.foldl_cons]
      dsimp only
      rw [patch, get_set]
    · rw [if_neg hn]
      cases hk : (Named.ofName? name : Option Section) with
      | none => rfl
      | some k =>
        have hkn : n ≠ k := by
          rintro rfl
          exact hn (Section.ofName?_eq_some.mp hk)
        dsimp only
        rw [patch, get_set_of_ne s hkn]

theorem get_edit (s : Settings) (e : Edit) (n : Section) :
    (s.edit e).get n = (e.documents n).foldl n.schema.patch
      (if e.restarts n then n.schema.initial else s.get n) := by
  cases e with
  | patch k fields =>
    show (s.patch k fields).get n = _
    by_cases hk : k = n
    · subst hk
      rw [Edit.documents, if_pos rfl, patch, get_set]
      rfl
    · rw [Edit.documents, if_neg hk, patch, get_set_of_ne s (Ne.symm hk)]
      rfl
  | patchAll document => exact get_patchAll_eq s n document
  | reset k =>
    show (s.reset k).get n = _
    by_cases hk : k = n
    · subst hk
      rw [Edit.restarts, reset, get_set, if_pos (decide_eq_true rfl)]
      rfl
    · rw [Edit.restarts, reset, get_set_of_ne s (Ne.symm hk), if_neg (by simpa using hk)]
      rfl
  | load k m =>
    show (loadSection m s k).get n = _
    rw [loadSection_eq]
    by_cases hk : k = n
    · subst hk
      rw [Edit.restarts, Edit.documents, get_set, if_pos (decide_eq_true rfl), if_pos rfl, loaded]
      cases m.read (address k) with
      | error e => rfl
      | ok bytes =>
        dsimp only [Except.toOption, Option.bind_some]
        cases Json.ofBytes? bytes <;> rfl
    · rw [Edit.restarts, Edit.documents, get_set_of_ne s (Ne.symm hk),
        if_neg (by simpa using hk), if_neg hk]
      rfl

end Espresso.Settings
