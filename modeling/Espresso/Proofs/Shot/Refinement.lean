import Mathlib.Data.List.Basic
import Espresso.Proofs.Shot.Changes
import Espresso.Proofs.Shot.Format

namespace Espresso.ShotHistory

def rated (shots : List Shot) (index : Nat) (rating : UInt8) : Except Error (List Shot) :=
  if 5 < rating then .error (.invalid .rating)
  else match shots[index]? with
    | none => .error (.shotNotFound index)
    | some s => .ok (shots.set index { s with rating := if rating = 0 then none else some rating })

def shotsOf? (bytes : Bytes) : Option (List Shot) :=
  (ShotBlob.decode 50 bytes).toOption.map List.reverse

def altered (shots : List Shot) : Change → List Shot
  | .add s => (s :: shots).take 50
  | .rate index rating => (rated shots index rating).toOption.getD shots
  | .clear => []
  | .decode bytes => (shotsOf? bytes).getD shots
  | .load m => ((m.read address).toOption.bind shotsOf?).getD []

structure Shows (h : ShotHistory) (shots : List Shot) : Prop where
  size_eq : h.size = shots.length
  get?_eq : ∀ index, h.get? index = shots[index]?
  newestFirst_eq : h.newestFirst = shots
  oldestFirst_eq : h.oldestFirst = shots.reverse
  rate_eq : ∀ index rating, (h.rate index rating).map newestFirst = rated shots index rating
  toBytes_eq : h.toBytes = ShotBlob.encode shots.reverse

variable {h : ShotHistory} {shots : List Shot}

theorem newestFirst_eq_toList (h : ShotHistory) : h.newestFirst = h.toList := by
  apply List.filterMap_eq_map_iff_forall_eq_some.mpr
  intro index hindex
  exact if_pos (List.mem_range.mp hindex)

theorem oldestFirst_eq_reverse (h : ShotHistory) : h.oldestFirst = h.toList.reverse := by
  rw [oldestFirst, List.filterMap_reverse]
  exact congrArg List.reverse h.newestFirst_eq_toList

theorem map_toList_rate (h : ShotHistory) (index : Nat) (rating : UInt8) :
    (h.rate index rating).map toList = rated h.toList index rating := by
  have hgreatest : Shot.greatestRating = 5 := rfl
  rw [rate, rated, hgreatest]
  by_cases hr : 5 < rating
  · rw [if_pos hr, if_pos hr]
    rfl
  · rw [if_neg hr, if_neg hr]
    by_cases hi : index < h.size
    · have hlt : index < h.toList.length := by rwa [length_toList]
      rw [if_neg (Nat.not_le.mpr hi), List.getElem?_eq_getElem hlt]
      refine congrArg Except.ok ((h.ring.toList_modify ..).trans ?_)
      exact List.modify_eq_set_get _ hlt
    · have hge : h.toList.length ≤ index := by rwa [length_toList, ← Nat.not_lt]
      rw [if_pos (Nat.not_lt.mp hi), List.getElem?_eq_none hge]
      rfl

theorem map_toList_ofBytes (bytes : Bytes) :
    (ofBytes bytes).toOption.map toList = shotsOf? bytes := by
  show ((ShotBlob.decode 50 bytes).map ofShots).toOption.map toList = _
  rw [shotsOf?]
  cases hd : ShotBlob.decode 50 bytes with
  | error e => rfl
  | ok shots => exact congrArg some (toList_ofShots (ShotBlob.length_of_decode hd))

theorem toList_change (h : ShotHistory) (c : Change) :
    (h.change c).toList = altered h.toList c := by
  cases c with
  | add s => exact h.toList_add s
  | rate index rating =>
    show ((h.rate index rating).toOption.getD h).toList = _
    rw [altered, ← map_toList_rate]
    cases h.rate index rating <;> rfl
  | clear => rfl
  | decode bytes =>
    show ((ofBytes bytes).toOption.getD h).toList = _
    rw [altered, ← map_toList_ofBytes]
    cases ofBytes bytes <;> rfl
  | load m =>
    show (load m).toList = _
    rw [load, altered]
    cases m.read address with
    | error e => rfl
    | ok bytes =>
      show ((ofBytes bytes).toOption.getD empty).toList = (shotsOf? bytes).getD []
      rw [← map_toList_ofBytes]
      cases ofBytes bytes <;> rfl

theorem toList_changes (h : ShotHistory) (cs : List Change) :
    (h.changes cs).toList = cs.foldl altered h.toList := by
  induction cs generalizing h with
  | nil => rfl
  | cons c cs ih =>
    rw [List.foldl_cons, ← toList_change]
    exact ih (h.change c)

theorem shows_toList (h : ShotHistory) : h.Shows h.toList where
  size_eq := h.length_toList.symm
  get?_eq := h.get?_eq_getElem?
  newestFirst_eq := h.newestFirst_eq_toList
  oldestFirst_eq := h.oldestFirst_eq_reverse
  rate_eq index rating := by
    rw [← map_toList_rate]
    exact congrArg (fun f => Except.map f _) (funext newestFirst_eq_toList)
  toBytes_eq := rfl

theorem shows_changes (cs : List Change) :
    (empty.changes cs).Shows (cs.foldl altered []) ∧
    ∀ h : ShotHistory, h.newestFirst = cs.foldl altered [] →
      ∀ later, (h.changes later).Shows ((cs ++ later).foldl altered []) := by
  constructor
  · have hshows := (empty.changes cs).shows_toList
    rwa [toList_changes] at hshows
  · intro h hlist later
    have hshows := (h.changes later).shows_toList
    rwa [toList_changes, ← newestFirst_eq_toList, hlist, ← List.foldl_append] at hshows

theorem shows_changes_over_stale_slots :
    let shot (i : Nat) : Shot := { (default : Shot) with timestamp := UInt32.ofNat i }
    let h := empty.changes ((List.range 60).map (fun i => .add (shot i)) ++ [.clear])
    h.newestFirst = [] ∧ h.ring.slots[9] = shot 59 ∧ h.ring.slots[10] = shot 10 ∧
      (h.changes [.add (shot 70), .rate 1 2, .rate 0 4]).Shows
        [{ shot 70 with rating := some 4 }] := by
  intro shot h
  have hlist : h.newestFirst = [] := by decide +kernel
  obtain ⟨-, hshows⟩ := shows_changes []
  exact ⟨hlist, by decide +kernel, by decide +kernel, hshows h hlist _⟩

end Espresso.ShotHistory
