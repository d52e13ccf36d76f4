import Espresso.Proofs.Binary
import Espresso.Proofs.Json.Value
import Espresso.Proofs.Text
import Espresso.Settings.Kind

namespace Espresso

def Scalar.Legible : Scalar → Prop
  | single x => Json.Legible x
  | _ => True

instance Scalar.decidableLegible : (s : Scalar) → Decidable s.Legible
  | single x => inferInstanceAs (Decidable (Json.Legible x))
  | flag _ => .isTrue trivial
  | whole _ => .isTrue trivial
  | text _ => .isTrue trivial

namespace Kind

def Distinct (α : Type) [Named α] : Prop :=
  ∀ a : α, Named.ofName? (Named.name a) = some a ∧ (Named.name a).utf8ByteSize ≤ 32

/-- Whether the values of a kind can be written and read back. -/
def Fair : {α : Type} → Kind α → Prop
  | _, flag => True
  | _, whole lo hi => lo.natAbs ≤ Json.greatestNegative ∧ hi.natAbs ≤ Json.greatestNegative
  | _, single lo hi => lo.isFinite = true ∧ hi.isFinite = true
  | _, text _ => True
  | _, label _ => True
  | α, @choice _ _ => Distinct α
  | _, derived => True

def Admits : {α : Type} → Kind α → α → Prop
  | _, flag, _ => True
  | _, whole lo hi, n => lo ≤ n ∧ n ≤ hi
  | _, single lo hi, x => Binary.within lo hi x = true
  | _, text limit, s => Text.hasControl s = false ∧ s.utf8ByteSize ≤ limit
  | _, label limit, s => Text.hasControl s = false ∧ s.utf8ByteSize ≤ limit
  | _, choice, _ => True
  | _, derived, _ => True

instance decidableAdmits : {α : Type} → (k : Kind α) → (a : α) → Decidable (k.Admits a)
  | _, flag, _ => .isTrue trivial
  | _, whole lo hi, n => inferInstanceAs (Decidable (lo ≤ n ∧ n ≤ hi))
  | _, single lo hi, x => inferInstanceAs (Decidable (Binary.within lo hi x = true))
  | _, text limit, s =>
    inferInstanceAs (Decidable (Text.hasControl s = false ∧ s.utf8ByteSize ≤ limit))
  | _, label limit, s =>
    inferInstanceAs (Decidable (Text.hasControl s = false ∧ s.utf8ByteSize ≤ limit))
  | _, choice, _ => .isTrue trivial
  | _, derived, _ => .isTrue trivial

def Readable : {α : Type} → Kind α → α → Prop
  | _, flag, _ => True
  | _, whole _ _, _ => True
  | _, single _ _, x => Json.Legible x
  | _, text _, _ => True
  | _, label _, s => Text.isHostLabel s = true
  | _, choice, _ => True
  | _, derived, _ => True

def isDerived : {α : Type} → Kind α → Bool
  | _, flag => false
  | _, whole _ _ => false
  | _, single _ _ => false
  | _, text _ => false
  | _, label _ => false
  | _, choice => false
  | _, derived => true

def isLabel : {α : Type} → Kind α → Bool
  | _, flag => false
  | _, whole _ _ => false
  | _, single _ _ => false
  | _, text _ => false
  | _, label _ => true
  | _, choice => false
  | _, derived => false

def retakes : {α : Type} → Kind α → α → Bool
  | _, flag, _ => true
  | _, whole _ _, _ => true
  | _, single _ _, _ => true
  | _, text _, _ => true
  | _, label _, s => Text.isHostLabel s
  | _, choice, _ => true
  | _, derived, _ => false

def room : {α : Type} → Kind α → Nat
  | _, flag => 5
  | _, whole _ _ => 20
  | _, single _ _ => 264
  | _, text limit => 6 * limit + 2
  | _, label limit => 6 * limit + 2
  | _, choice => 6 * 32 + 2
  | _, derived => 5

variable {α : Type} {k : Kind α} {a : α} {v : Json}

theorem readable_iff : k.Readable a ↔ (k.scalar a).Legible ∧ k.retakes a = !k.isDerived := by
  cases k with
  | single lo hi => exact (and_iff_left rfl).symm
  | label limit => exact (and_iff_right trivial).symm
  | _ => exact ⟨fun _ => ⟨trivial, rfl⟩, fun _ => trivial⟩

theorem retakes_of_isLabel (hk : k.isLabel = false) : k.retakes a = !k.isDerived := by
  cases k with
  | label limit => cases hk
  | _ => rfl

theorem admits_of_text? {limit : Nat} {s t : String} (h : text? limit s = some t) :
    Text.hasControl t = false ∧ t.utf8ByteSize ≤ limit := by
  obtain ⟨hs, ht⟩ := (Option.ite_none_left_eq_some ..).mp h
  obtain rfl := Option.some.inj ht
  exact ⟨Text.hasControl_clip (by simpa using hs), Text.utf8ByteSize_clip_le limit s⟩

theorem admits_of_accept (h : k.accept v = some a) : k.Admits a := by
  cases k with
  | flag => trivial
  | whole lo hi =>
    change v.int? lo hi = some a at h
    unfold Json.int? at h
    split at h
    · obtain ⟨hr, ha⟩ := (Option.ite_none_right_eq_some ..).mp h
      obtain rfl := Option.some.inj ha
      exact hr
    · cases h
  | single lo hi => exact (Option.filter_eq_some_iff.mp h).2
  | text limit =>
    obtain ⟨s, -, hs⟩ := Option.bind_eq_some_iff.mp h
    exact admits_of_text? hs
  | label limit =>
    obtain ⟨s, -, hs⟩ := Option.bind_eq_some_iff.mp h
    exact admits_of_text? hs
  | choice => trivial
  | derived => trivial

theorem isDerived_eq_false {a : α} (h : k.accept v = some a) : k.isDerived = false := by
  cases k with
  | derived => cases h
  | _ => rfl

theorem admits_of_isDerived (h : k.isDerived = true) (a : α) : k.Admits a := by
  cases k with
  | derived => trivial
  | _ => cases h

theorem fair_flag : flag.Fair := trivial

theorem fair_derived : derived.Fair := trivial

theorem fair_text (limit : Nat) : (text limit).Fair := trivial

theorem fair_label (limit : Nat) : (label limit).Fair := trivial

theorem fair_whole {lo hi : Int} : (whole lo hi).Fair ↔
    lo.natAbs ≤ Json.greatestNegative ∧ hi.natAbs ≤ Json.greatestNegative := Iff.rfl

theorem fair_single {lo hi : Single} :
    (single lo hi).Fair ↔ lo.isFinite = true ∧ hi.isFinite = true := Iff.rfl

theorem fair_choice [Named α] : (choice : Kind α).Fair ↔ Distinct α := Iff.rfl

theorem natAbs_le_of_between {lo hi n : Int} {bound : Nat} (hlo : lo.natAbs ≤ bound)
    (hhi : hi.natAbs ≤ bound) (h : lo ≤ n ∧ n ≤ hi) : n.natAbs ≤ bound := by omega

theorem isFinite_of_within {lo hi x : Single} (hlo : lo.isFinite = true) (hhi : hi.isFinite = true)
    (h : Binary.within lo hi x = true) : x.isFinite = true := by
  have hplace (y : Single) : y.place.natAbs = y.magnitude := by
    unfold Binary.place
    split <;> omega
  simp only [Binary.within, Binary.le, Bool.and_eq_true] at h
  have hx := natAbs_le_of_between (Nat.le_max_left ..) (Nat.le_max_right ..)
    ⟨of_decide_eq_true h.1.2, of_decide_eq_true h.2.2⟩
  rw [hplace, hplace, hplace] at hx
  exact decide_eq_true (Nat.lt_of_le_of_lt hx
    (Nat.max_lt.mpr ⟨of_decide_eq_true hlo, of_decide_eq_true hhi⟩))

theorem size_intText_le {n : Int} (h : n.natAbs ≤ Json.greatestNegative) :
    Text.size (Json.intText n) ≤ 20 := by
  have hn : n.natAbs < 10 ^ 19 := Nat.lt_of_le_of_lt h (by decide)
  have hdigits := Decimal.length_digitText_le (by decide) hn
  have hsign : (Decimal.signText (n < 0)).length ≤ 1 := by
    unfold Decimal.signText
    split <;> simp
  rw [Text.size_ascii, Json.intText, List.length_append]
  · omega
  · intro c hc
    apply Decimal.utf8Size_of_plain
    rcases List.mem_append.mp hc with hc | hc
    · exact Decimal.plain_of_mem_signText hc
    · exact Decimal.plain_of_mem_digitText hc

theorem size_floatText_le {x : Single} (h : x.isFinite = true) :
    Text.size (Json.floatText x) ≤ 264 := by
  rw [Json.floatText, if_pos h, Text.size_ascii]
  · exact x.length_text_le
  · intro c hc
    apply Decimal.utf8Size_of_plain
    rcases List.mem_append.mp hc with hc | hc
    · exact Decimal.plain_of_mem_signText hc
    · exact Decimal.plain_of_mem_render _ hc

theorem size_quote_le {limit : Nat} {s : String} (h : s.utf8ByteSize ≤ limit) :
    Text.size (Json.quote s) ≤ 6 * limit + 2 := by
  have hs := Json.size_quote_le s
  omega

theorem size_stored_le (hk : k.Fair) (ha : k.Admits a) : Text.size (k.scalar a).stored ≤ k.room := by
  have hbool (b : Bool) : Text.size (Json.write (.bool b)) ≤ 5 := by cases b <;> decide
  cases k with
  | flag => exact hbool a
  | whole lo hi => exact size_intText_le (natAbs_le_of_between hk.1 hk.2 ha)
  | single lo hi => exact size_floatText_le (isFinite_of_within hk.1 hk.2 ha)
  | text limit => exact size_quote_le ha.2
  | label limit => exact size_quote_le ha.2
  | choice => exact size_quote_le (hk a).2
  | derived => exact hbool a

theorem text?_of_admits {limit : Nat} {s : String}
    (hs : Text.hasControl s = false ∧ s.utf8ByteSize ≤ limit) : text? limit s = some s := by
  rw [text?, hs.1, Text.clip_eq_self hs.2]
  rfl

theorem accept_toJson (hk : k.Fair) (ha : k.Admits a) :
    k.accept (k.scalar a).toJson = if k.retakes a then some a else none := by
  cases k with
  | flag => rfl
  | whole lo hi => exact if_pos ha
  | single lo hi =>
    have hf := isFinite_of_within hk.1 hk.2 ha
    show (Json.single a).single?.filter (Binary.within lo hi) = some a
    rw [Json.single, if_pos hf, Json.single?, Binary.convert_convert hf]
    exact if_pos ha
  | text limit => exact text?_of_admits ha
  | label limit =>
    show ((some a).filter Text.isHostLabel).bind (text? limit) =
      if Text.isHostLabel a = true then some a else none
    rw [Option.filter_some]
    by_cases hl : Text.isHostLabel a = true
    · rw [if_pos hl]
      exact text?_of_admits ha
    · rw [if_neg hl]
      rfl
  | choice => exact (hk a).1
  | derived => rfl

theorem exists_writes (hk : k.Fair) (ha : k.Admits a) (hl : (k.scalar a).Legible) :
    ∃ v, Json.Writes (k.scalar a).stored v ∧
      k.accept v = if k.retakes a then some a else none := by
  have haccept := accept_toJson hk ha
  cases k with
  | single lo hi =>
    obtain ⟨v, hv, hw⟩ := Json.writes_float (isFinite_of_within hk.1 hk.2 ha) hl
    refine ⟨v, hw, ?_⟩
    show v.single?.filter (Binary.within lo hi) = some a
    rw [hv]
    exact if_pos ha
  | flag => exact ⟨_, Json.writes_bool a, haccept⟩
  | whole lo hi => exact ⟨_, Json.writes_int (natAbs_le_of_between hk.1 hk.2 ha), haccept⟩
  | text limit => exact ⟨_, Json.writes_text a, haccept⟩
  | label limit => exact ⟨_, Json.writes_text a, haccept⟩
  | choice => exact ⟨_, Json.writes_text (Named.name a), haccept⟩
  | derived => exact ⟨_, Json.writes_bool a, haccept⟩

end Kind

end Espresso
