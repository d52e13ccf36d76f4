import Mathlib.Data.List.Forall2
import Espresso.Proofs.Binary
import Espresso.Proofs.Json.Object

namespace Espresso

namespace Binary

variable {x y : Single}

theorem place_eq_zero_of_convert (hx : x.isFinite = true)
    (h : (x.convert : Double).magnitude = 0) : x.place = 0 := by
  have hzero (b : Bool) : ((signedZero b : Double).convert : Single).place = 0 := by
    cases b <;> decide +kernel
  have hwide : (x.convert : Double) = signedZero (x.convert : Double).negative := by
    generalize (x.convert : Double) = u at h
    cases u
    subst h
    rfl
  rw [← convert_convert hx, hwide]
  exact hzero _

theorem place_eq_of_convert (hx : x.isFinite = true) (hy : y.isFinite = true)
    (h : (x.convert : Double).place = (y.convert : Double).place) : x.place = y.place := by
  by_cases heq : (x.convert : Double) = y.convert
  · rw [← convert_convert hx, heq, convert_convert hy]
  · have hzero : (x.convert : Double).magnitude = 0 ∧ (y.convert : Double).magnitude = 0 := by
      generalize (x.convert : Double) = u at h heq
      generalize (y.convert : Double) = v at h heq
      obtain ⟨m, k, hk⟩ := u
      obtain ⟨n, l, hl⟩ := v
      cases m <;> cases n <;> simp [place] at h heq ⊢ <;> omega
    rw [place_eq_zero_of_convert hx hzero.1, place_eq_zero_of_convert hy hzero.2]

end Binary

namespace Json

mutual

def same : Json → Json → Bool
  | null, null => true
  | bool a, bool b => a = b
  | int a, int b => a = b
  | float x, float y => x.same y
  | text a, text b => a = b
  | array xs, array ys => sameItems xs ys
  | object xs, object ys => sameMembers xs ys
  | _, _ => false

def sameItems : List Json → List Json → Bool
  | [], [] => true
  | v :: vs, w :: ws => v.same w && sameItems vs ws
  | _, _ => false

def sameMembers : List (String × Json) → List (String × Json) → Bool
  | [], [] => true
  | (k, v) :: vs, (l, w) :: ws => k = l && v.same w && sameMembers vs ws
  | _, _ => false

end

variable {v w a b : Json} {key : String} {pairs pairs' : List (String × Json)}

theorem same_of_find? {xs ys : Members} (h : sameMembers xs ys = true)
    (ha : find? key xs = some a) (hb : find? key ys = some b) : a.same b = true := by
  induction xs generalizing ys with
  | nil => cases ha
  | cons x xs ih =>
    obtain ⟨k, v⟩ := x
    cases ys with
    | nil => cases hb
    | cons y ys =>
      obtain ⟨l, w⟩ := y
      simp only [sameMembers, Bool.and_eq_true, decide_eq_true_eq] at h
      obtain ⟨⟨rfl, hvw⟩, hrest⟩ := h
      rw [find?_cons] at ha hb
      split at ha
      · next hk =>
        rw [if_pos hk] at hb
        obtain rfl := Option.some.inj ha
        obtain rfl := Option.some.inj hb
        exact hvw
      · next hk =>
        rw [if_neg hk] at hb
        exact ih hrest ha hb

theorem same_of_get? (h : v.same w = true) (ha : v.get? key = some a) (hb : w.get? key = some b) :
    a.same b = true := by
  cases v with
  | object xs =>
    cases w with
    | object ys =>
      rw [same] at h
      exact same_of_find? h ha hb
    | _ => cases hb
  | _ => cases ha

theorem get?_ofPairs (hkeys : (pairs.map Prod.fst).Nodup) (h : (key, v) ∈ pairs) :
    (ofPairs pairs).get? key = some v := find?_ofMembers_of_mem hkeys h

theorem forall₂_same (h : (ofPairs pairs).same (ofPairs pairs') = true)
    (hkeys : (pairs.map Prod.fst).Nodup) (hsame : pairs'.map Prod.fst = pairs.map Prod.fst) :
    List.Forall₂ (fun p q => p.2.same q.2 = true) pairs pairs' := by
  rw [List.forall₂_iff_get]
  refine ⟨by simpa using (congrArg List.length hsame).symm, ?_⟩
  intro i hi hi'
  have hkey : (pairs'.get ⟨i, hi'⟩).1 = (pairs.get ⟨i, hi⟩).1 := by
    have hget := congrArg (fun keys : List String => keys[i]?) hsame
    simpa [hi, hi'] using hget
  have hv : (ofPairs pairs).get? (pairs.get ⟨i, hi⟩).1 = some (pairs.get ⟨i, hi⟩).2 :=
    get?_ofPairs hkeys (List.get_mem ..)
  have hw : (ofPairs pairs').get? (pairs.get ⟨i, hi⟩).1 = some (pairs'.get ⟨i, hi'⟩).2 := by
    rw [← hkey]
    exact get?_ofPairs (hsame ▸ hkeys) (List.get_mem ..)
  exact same_of_get? h hv hw

theorem same_single {x y : Single} (hx : x.isFinite = true) (hy : y.isFinite = true)
    (h : (single x).same (single y) = true) : x.same y = true := by
  have hnan {z : Single} (hz : z.isFinite = true) : z.isNaN = false :=
    decide_eq_false (Nat.lt_asymm (of_decide_eq_true hz))
  rw [single, if_pos hx, single, if_pos hy, same] at h
  simp only [Binary.same, Bool.and_eq_true, decide_eq_true_eq] at h
  simp [Binary.same, hnan hx, hnan hy, Binary.place_eq_of_convert hx hy h.2]

theorem eq_of_sameItems_map {α : Type} {f : α → Json} {xs ys : List α}
    (hf : ∀ x y, (f x).same (f y) = true → x = y)
    (h : sameItems (xs.map f) (ys.map f) = true) : xs = ys := by
  induction xs generalizing ys with
  | nil => cases ys with
    | nil => rfl
    | cons y ys => simp [sameItems] at h
  | cons x xs ih => cases ys with
    | nil => simp [sameItems] at h
    | cons y ys =>
      simp only [List.map_cons, sameItems, Bool.and_eq_true] at h
      rw [hf x y h.1, ih h.2]

end Json

end Espresso
