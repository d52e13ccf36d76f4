namespace Espresso

structure Ring (α : Type) (capacity : Nat) where
  slots : Vector α capacity
  next : Fin capacity
  size : Nat
  size_le : size ≤ capacity

namespace Ring

variable {α : Type} {capacity : Nat}

def empty [Inhabited α] (h : 0 < capacity) : Ring α capacity :=
  ⟨Vector.replicate capacity default, ⟨0, h⟩, 0, Nat.zero_le _⟩

theorem capacity_pos (r : Ring α capacity) : 0 < capacity := Nat.zero_lt_of_lt r.next.isLt

def slot (r : Ring α capacity) (index : Nat) : Fin capacity :=
  ⟨(r.next + capacity - 1 - index) % capacity, Nat.mod_lt _ r.capacity_pos⟩

def get? (r : Ring α capacity) (index : Nat) : Option α :=
  if index < r.size then some r.slots[r.slot index] else none

def push (r : Ring α capacity) (a : α) : Ring α capacity where
  slots := r.slots.set r.next a
  next := ⟨(r.next + 1) % capacity, Nat.mod_lt _ r.capacity_pos⟩
  size := min (r.size + 1) capacity
  size_le := Nat.min_le_right _ _

def clear (r : Ring α capacity) : Ring α capacity :=
  ⟨r.slots, ⟨0, r.capacity_pos⟩, 0, Nat.zero_le _⟩

def modify (r : Ring α capacity) (index : Nat) (f : α → α) : Ring α capacity :=
  if index < r.size then { r with slots := r.slots.set (r.slot index) (f r.slots[r.slot index]) }
  else r

def toList (r : Ring α capacity) : List α :=
  (List.range r.size).map fun index => r.slots[r.slot index]

theorem length_toList (r : Ring α capacity) : r.toList.length = r.size := by simp [toList]

theorem getElem?_toList (r : Ring α capacity) (index : Nat) : r.toList[index]? = r.get? index := by
  by_cases h : index < r.size <;> simp [toList, get?, h]

theorem slot_val (r : Ring α capacity) {index : Nat} (h : index < capacity) :
    (r.slot index).val =
      if index < r.next.val then r.next.val - 1 - index else r.next.val + capacity - 1 - index := by
  have hn := r.next.isLt
  show (r.next.val + capacity - 1 - index) % capacity = _
  split
  · rw [show r.next.val + capacity - 1 - index = r.next.val - 1 - index + capacity by omega,
      Nat.add_mod_right]
    exact Nat.mod_eq_of_lt (by omega)
  · exact Nat.mod_eq_of_lt (by omega)

theorem next_push (r : Ring α capacity) (a : α) :
    (r.push a).next.val = if r.next.val + 1 = capacity then 0 else r.next.val + 1 := by
  have hn := r.next.isLt
  show (r.next.val + 1) % capacity = _
  split
  · next h => rw [h, Nat.mod_self]
  · exact Nat.mod_eq_of_lt (by omega)

theorem slot_push_zero (r : Ring α capacity) (a : α) : (r.push a).slot 0 = r.next := by
  have hn := r.next.isLt
  apply Fin.ext
  rw [slot_val _ r.capacity_pos, next_push]
  split <;> split <;> omega

theorem slot_push_succ (r : Ring α capacity) (a : α) {index : Nat} (h : index + 1 < capacity) :
    (r.push a).slot (index + 1) = r.slot index := by
  have hn := r.next.isLt
  apply Fin.ext
  rw [slot_val _ h, slot_val _ (Nat.lt_of_succ_lt h), next_push]
  split <;> split <;> split <;> omega

theorem slot_ne_next (r : Ring α capacity) {index : Nat} (h : index + 1 < capacity) :
    (r.slot index).val ≠ r.next.val := by
  have hn := r.next.isLt
  rw [slot_val _ (Nat.lt_of_succ_lt h)]
  split <;> omega

theorem slot_inj (r : Ring α capacity) {i j : Nat} (hi : i < capacity) (hj : j < capacity)
    (h : (r.slot i).val = (r.slot j).val) : i = j := by
  have hn := r.next.isLt
  rw [slot_val _ hi, slot_val _ hj] at h
  split at h <;> split at h <;> omega

theorem toList_empty [Inhabited α] (h : 0 < capacity) : (empty h : Ring α capacity).toList = [] :=
  rfl

theorem toList_push (r : Ring α capacity) (a : α) :
    (r.push a).toList = (a :: r.toList).take capacity := by
  have hs := r.size_le
  apply List.ext_getElem?
  intro i
  rw [getElem?_toList, List.getElem?_take]
  cases i with
  | zero =>
    have hp : 0 < (r.push a).size := Nat.lt_min.mpr ⟨Nat.succ_pos _, r.capacity_pos⟩
    simp only [get?, hp, r.capacity_pos, if_true, slot_push_zero]
    simp [push]
  | succ j =>
    rw [List.getElem?_cons_succ, getElem?_toList, get?, get?]
    by_cases hj : j < r.size ∧ j + 1 < capacity
    · have hp : j + 1 < (r.push a).size := Nat.lt_min.mpr ⟨by omega, hj.2⟩
      simp only [hp, hj.1, hj.2, if_true, slot_push_succ r a hj.2]
      exact congrArg some (Vector.getElem_set_ne r.next.isLt _ (r.slot_ne_next hj.2).symm)
    · have hp : ¬j + 1 < (r.push a).size := fun h => by
        have := Nat.lt_min.mp h
        omega
      rw [if_neg hp]
      split
      · rw [if_neg (by omega)]
      · rfl

theorem toList_modify (r : Ring α capacity) (index : Nat) (f : α → α) :
    (r.modify index f).toList = r.toList.modify index f := by
  have hs := r.size_le
  apply List.ext_getElem?
  intro i
  rw [getElem?_toList, List.getElem?_modify, getElem?_toList, modify]
  split
  · next h =>
    rw [get?, get?]
    by_cases hi : i < r.size
    · rw [if_pos hi, if_pos hi]
      by_cases he : index = i
      · subst he
        simp [slot]
      · have hne : (r.slot index).val ≠ (r.slot i).val := fun h' =>
          he (r.slot_inj (by omega) (by omega) h')
        simp only [Fin.getElem_fin, he, if_false]
        exact congrArg some (Vector.getElem_set_ne _ _ hne)
    · rw [if_neg hi, if_neg hi]
      rfl
  · next h =>
    by_cases he : index = i
    · subst he
      simp [get?, h]
    · simp [he]

end Ring

end Espresso
