import Mathlib.Data.List.Basic
import Espresso.Proofs.Schedule.RoundTrip
import Espresso.Schedule.Change

namespace Espresso

structure ScheduleEntry.Timed (e : ScheduleEntry) : Prop where
  hour : e.hour ≤ 23
  minute : e.minute ≤ 59
  day : ∃ weekday, e.days.contains weekday = true

theorem Days.isActive_iff (d : Days) : d.isActive = true ↔ ∃ weekday, d.contains weekday = true := by
  have hseven : (128 : Nat) = 2 ^ 7 := by decide
  simp only [isActive, contains, decide_eq_true_eq, Bool.and_eq_true, hseven]
  constructor
  · intro h
    obtain ⟨weekday, hw⟩ := Nat.exists_testBit_of_ne_zero h
    rw [Nat.testBit_mod_two_pow] at hw
    exact ⟨weekday, by simpa using hw⟩
  · rintro ⟨weekday, hlt, hw⟩ h0
    have hbit := Nat.testBit_mod_two_pow d.mask.toNat 7 weekday
    rw [h0] at hbit
    simp [hlt, hw] at hbit

theorem ScheduleEntry.validate_cases (e : ScheduleEntry) :
    (e.Timed ∧ e.validate = .ok ()) ∨ ¬e.Timed ∧ ∃ r, e.validate = .error (.invalid r) := by
  unfold validate
  split
  · next h => exact .inr ⟨fun ht => UInt8.not_lt.mpr ht.hour h, _, rfl⟩
  · next hhour =>
    split
    · next h => exact .inr ⟨fun ht => UInt8.not_lt.mpr ht.minute h, _, rfl⟩
    · next hminute =>
      split
      · next h =>
        exact .inl ⟨⟨UInt8.not_lt.mp hhour, UInt8.not_lt.mp hminute, e.days.isActive_iff.mp h⟩, rfl⟩
      · next h => exact .inr ⟨fun ht => h (e.days.isActive_iff.mpr ht.day), _, rfl⟩

theorem ScheduleEntry.validate_eq_ok (e : ScheduleEntry) : e.validate = .ok () ↔ e.Timed := by
  rcases e.validate_cases with ⟨htimed, hv⟩ | ⟨htimed, r, hv⟩
  · exact iff_of_true hv htimed
  · rw [hv]
    exact iff_of_false nofun htimed

namespace ScheduleTable

structure Ordered (t : ScheduleTable) : Prop extends t.Sound where
  ascending : t.entries.Pairwise fun e f => e.id < f.id
  autoOff : t.autoOffEnabled = true → 1 ≤ t.autoOffMinutes ∧ t.autoOffMinutes ≤ 480

def Exhausted (t : ScheduleTable) : Prop :=
  t.size = 10 ∨ t.highestId = 255 ∨ ∃ f ∈ t.entries, f.id = 255

def Admits (t : ScheduleTable) : Change → Prop
  | .add e => e.Timed ∧ ¬t.Exhausted
  | .update id e => e.Timed ∧ ∃ f ∈ t.entries, f.id = id
  | .remove id => ∃ f ∈ t.entries, f.id = id
  | .enable id _ => ∃ f ∈ t.entries, f.id = id
  | .setAutoOff enabled minutes => enabled = true → 1 ≤ minutes ∧ minutes ≤ 480
  | .reload _ => True

inductive Effect (t : ScheduleTable) : Change → Option UInt8 → ScheduleTable → Prop where
  | added {e : ScheduleEntry} {id : UInt8} (above : t.highestId < id)
      (fresh : ∀ f ∈ t.entries, f.id < id) :
      Effect t (.add e) (some id)
        { t with entries := t.entries ++ [{ e with id }], highestId := id }
  | updated {e : ScheduleEntry} {i : Nat} (hi : i < t.entries.length) :
      Effect t (.update t.entries[i].id e) none
        { t with entries := t.entries.set i { e with id := t.entries[i].id } }
  | removed {i : Nat} (hi : i < t.entries.length) :
      Effect t (.remove t.entries[i].id) none { t with entries := t.entries.eraseIdx i }
  | enabled {enabled : Bool} {i : Nat} (hi : i < t.entries.length) :
      Effect t (.enable t.entries[i].id enabled) none
        { t with entries := t.entries.set i { t.entries[i] with enabled } }
  | setAutoOff {enabled : Bool} {minutes : UInt16}
      (bounds : enabled = true → 1 ≤ minutes ∧ minutes ≤ 480) :
      Effect t (.setAutoOff enabled minutes) none
        { t with autoOffEnabled := enabled, autoOffMinutes := minutes }
  | reloaded {m : Medium} : Effect t (.reload m) none { t with highestId := 0 }

variable {t u : ScheduleTable} {c : Change} {given : Option UInt8}

theorem max_cases (a b : UInt8) : a ≤ max a b ∧ b ≤ max a b ∧ (max a b = a ∨ max a b = b) := by
  have hmax : max a b = if a ≤ b then b else a := rfl
  rw [hmax]
  split
  · next h => exact ⟨h, UInt8.le_refl b, .inr rfl⟩
  · next h => exact ⟨UInt8.le_refl a, UInt8.le_of_lt (UInt8.not_le.mp h), .inl rfl⟩

theorem foldl_max (entries : List ScheduleEntry) (id : UInt8) :
    let last := entries.foldl (fun id e => max id e.id) id
    id ≤ last ∧ (∀ f ∈ entries, f.id ≤ last) ∧ (last = id ∨ ∃ f ∈ entries, f.id = last) := by
  induction entries generalizing id with
  | nil => exact ⟨UInt8.le_refl id, by simp, .inl rfl⟩
  | cons e entries ih =>
    obtain ⟨hle, hmem, heq⟩ := ih (max id e.id)
    obtain ⟨hid, he, hcases⟩ := max_cases id e.id
    refine ⟨UInt8.le_trans hid hle, ?_, ?_⟩
    · intro f hf
      rcases List.mem_cons.mp hf with rfl | hf
      · exact UInt8.le_trans he hle
      · exact hmem f hf
    · rcases heq with heq | ⟨f, hf, heq⟩
      · rcases hcases with hmax | hmax
        · exact .inl (heq.trans hmax)
        · exact .inr ⟨e, List.mem_cons_self .., (heq.trans hmax).symm⟩
      · exact .inr ⟨f, List.mem_cons_of_mem _ hf, heq⟩

theorem lastId_spec (t : ScheduleTable) :
    t.highestId ≤ t.lastId ∧ (∀ f ∈ t.entries, f.id ≤ t.lastId) ∧
      (t.lastId = t.highestId ∨ ∃ f ∈ t.entries, f.id = t.lastId) := foldl_max ..

theorem lastId_eq_greatest : t.lastId = 255 ↔ t.highestId = 255 ∨ ∃ f ∈ t.entries, f.id = 255 := by
  have hgreatest {id : UInt8} (h : 255 ≤ id) : id = 255 := by
    rw [UInt8.le_iff_toNat_le] at h
    have hlt := id.toNat_lt
    apply UInt8.toNat_inj.mp
    have h255 : (255 : UInt8).toNat = 255 := rfl
    omega
  obtain ⟨hhighest, hlive, heq⟩ := t.lastId_spec
  constructor
  · intro h
    rw [h] at heq
    exact heq.imp_left Eq.symm
  · rintro (h | ⟨f, hf, h⟩)
    · exact hgreatest (h ▸ hhighest)
    · exact hgreatest (h ▸ hlive f hf)

theorem lt_succ_lastId (h : t.lastId ≠ 255) :
    t.highestId < t.lastId + 1 ∧ ∀ f ∈ t.entries, f.id < t.lastId + 1 := by
  have hlast {id : UInt8} (hle : id ≤ t.lastId) : id < t.lastId + 1 := by
    rw [UInt8.le_iff_toNat_le] at hle
    have hne : t.lastId.toNat ≠ 255 := fun he => h (UInt8.toNat_inj.mp he)
    have hlt := t.lastId.toNat_lt
    rw [UInt8.lt_iff_toNat_lt, UInt8.toNat_add, Nat.mod_eq_of_lt]
    · exact Nat.lt_succ_of_le hle
    · show t.lastId.toNat + 1 < 256
      omega
  obtain ⟨hhighest, hlive, -⟩ := t.lastId_spec
  exact ⟨hlast hhighest, fun f hf => hlast (hlive f hf)⟩

theorem exists_of_map_eq_ok {α β : Type} {x : Except Error α} {f : α → β} {b : β}
    (h : x.map f = .ok b) : ∃ a, x = .ok a ∧ f a = b := by
  cases x with
  | error e => cases h
  | ok a => exact ⟨a, rfl, Except.ok.inj h⟩

theorem of_map_prod_eq_ok {x : Except Error ScheduleTable}
    (h : (x.map fun u => ((none : Option UInt8), u)) = .ok (given, u)) :
    given = none ∧ x = .ok u := by
  obtain ⟨v, hv, hp⟩ := exists_of_map_eq_ok h
  obtain ⟨rfl, rfl⟩ := Prod.mk.inj hp
  exact ⟨rfl, hv⟩

theorem attempt_eq_ok (h : t.attempt c = .ok (given, u)) :
    match c with
    | .add e => ∃ id, given = some id ∧ t.add e = .ok (id, u)
    | .update id e => given = none ∧ t.update id e = .ok u
    | .remove id => given = none ∧ t.remove id = .ok u
    | .enable id enabled => given = none ∧ t.enable id enabled = .ok u
    | .setAutoOff enabled minutes => given = none ∧ t.setAutoOff enabled minutes = .ok u
    | .reload m => given = none ∧ u = load (t.save m).2 := by
  cases c with
  | add e =>
    obtain ⟨⟨id, v⟩, ha, hp⟩ := exists_of_map_eq_ok h
    obtain ⟨rfl, rfl⟩ := Prod.mk.inj hp
    exact ⟨id, rfl, ha⟩
  | update id e => exact of_map_prod_eq_ok h
  | remove id => exact of_map_prod_eq_ok h
  | enable id enabled => exact of_map_prod_eq_ok h
  | setAutoOff enabled minutes => exact of_map_prod_eq_ok h
  | reload m =>
    simp only [attempt] at h
    split at h
    · next hs =>
      obtain ⟨rfl, rfl⟩ := Prod.mk.inj (Except.ok.inj h)
      exact ⟨rfl, by rw [hs]⟩
    · cases h

theorem sound_of_attempt (ht : t.Sound) (h : t.attempt c = .ok (given, u)) : u.Sound := by
  have ha := attempt_eq_ok h
  cases c with
  | add e =>
    obtain ⟨id, -, ha⟩ := ha
    exact ht.add ha
  | update id e => exact ht.update ha.2
  | remove id => exact ht.remove ha.2
  | enable id enabled => exact ht.enable ha.2
  | setAutoOff enabled minutes => exact ht.setAutoOff ha.2
  | reload m =>
    rw [ha.2]
    exact sound_load _

theorem effect_of_modify {id : UInt8} {f : ScheduleEntry → ScheduleEntry}
    (h : t.modify id f = .ok u) : ∃ i, ∃ hi : i < t.entries.length,
      id = t.entries[i].id ∧ u = { t with entries := t.entries.set i (f t.entries[i]) } := by
  obtain ⟨i, hi, rfl⟩ := modify_eq_ok h
  obtain ⟨hlt, hid, -⟩ := List.findIdx?_eq_some_iff_getElem.mp hi
  refine ⟨i, hlt, (of_decide_eq_true hid).symm, ?_⟩
  rw [List.modify_eq_set_get f hlt]
  rfl

theorem effect_of_remove {id : UInt8} (h : t.remove id = .ok u) :
    ∃ i, ∃ hi : i < t.entries.length,
      id = t.entries[i].id ∧ u = { t with entries := t.entries.eraseIdx i } := by
  unfold remove at h
  split at h
  · cases h
  · next f hf =>
    obtain rfl := Except.ok.inj h
    rw [List.eraseP_eq_eraseIdx]
    cases hi : t.entries.findIdx? fun e => e.id = id with
    | none =>
      have hne := List.findIdx?_eq_none_iff.mp hi f (List.mem_of_find?_eq_some hf)
      rw [List.find?_some hf] at hne
      cases hne
    | some i =>
      obtain ⟨hlt, hid, -⟩ := List.findIdx?_eq_some_iff_getElem.mp hi
      exact ⟨i, hlt, (of_decide_eq_true hid).symm, rfl⟩

theorem effect_of_attempt (ht : t.Sound) (hm : ∀ m, c = .reload m → m.Ready)
    (h : t.attempt c = .ok (given, u)) : t.Effect c given u := by
  have ha := attempt_eq_ok h
  cases c with
  | add e =>
    obtain ⟨id, rfl, ha⟩ := ha
    obtain ⟨-, -, hlast, rfl, rfl⟩ := add_eq_ok ha
    obtain ⟨above, fresh⟩ := lt_succ_lastId hlast
    exact .added above fresh
  | update id e =>
    obtain ⟨rfl, ha⟩ := ha
    obtain ⟨i, hi, rfl, rfl⟩ := effect_of_modify (update_eq_ok ha).2
    exact .updated hi
  | remove id =>
    obtain ⟨rfl, ha⟩ := ha
    obtain ⟨i, hi, rfl, rfl⟩ := effect_of_remove ha
    exact .removed hi
  | enable id enabled =>
    obtain ⟨rfl, ha⟩ := ha
    obtain ⟨i, hi, rfl, rfl⟩ := effect_of_modify ha
    exact .enabled hi
  | setAutoOff enabled minutes =>
    obtain ⟨rfl, ha⟩ := ha
    unfold ScheduleTable.setAutoOff at ha
    split at ha
    · cases ha
    · next hbounds =>
      obtain rfl := Except.ok.inj ha
      exact .setAutoOff fun he => Decidable.not_not.mp fun hb => hbounds ⟨he, hb⟩
  | reload m =>
    obtain ⟨rfl, rfl⟩ := ha
    rw [load_of_save (hm m rfl) ht]
    exact .reloaded

theorem map_id_set {entries : List ScheduleEntry} {i : Nat} (hi : i < entries.length)
    {e : ScheduleEntry} (he : e.id = entries[i].id) :
    (entries.set i e).map ScheduleEntry.id = entries.map ScheduleEntry.id := by
  rw [List.map_set, he, ← List.getElem_map ScheduleEntry.id (h := by simpa using hi),
    List.set_getElem_self]

theorem pairwise_set {R : UInt8 → UInt8 → Prop} {entries : List ScheduleEntry}
    (h : entries.Pairwise fun e f => R e.id f.id) {i : Nat} (hi : i < entries.length)
    {e : ScheduleEntry} (he : e.id = entries[i].id) :
    (entries.set i e).Pairwise fun e f => R e.id f.id := by
  rw [← List.pairwise_map (f := ScheduleEntry.id) (R := R), map_id_set hi he, List.pairwise_map]
  exact h

theorem pairwise_effect {R : UInt8 → UInt8 → Prop} (hR : ∀ x y, x < y → R x y)
    (ht : t.entries.Pairwise fun e f => R e.id f.id) (he : t.Effect c given u) :
    u.entries.Pairwise fun e f => R e.id f.id := by
  cases he with
  | @added e id above fresh =>
    -- Only a new entry stands to others as none did before, and its id is the highest.
    rw [List.pairwise_append]
    refine ⟨ht, List.pairwise_singleton .., ?_⟩
    intro f hf g hg
    rw [List.mem_singleton.mp hg]
    exact hR _ _ (fresh f hf)
  | updated hi => exact pairwise_set ht hi rfl
  | removed hi => exact ht.sublist (List.eraseIdx_sublist ..)
  | enabled hi => exact pairwise_set ht hi rfl
  | setAutoOff bounds => exact ht
  | reloaded => exact ht

theorem autoOff_effect (ht : t.autoOffEnabled = true → 1 ≤ t.autoOffMinutes ∧ t.autoOffMinutes ≤ 480)
    (he : t.Effect c given u) :
    u.autoOffEnabled = true → 1 ≤ u.autoOffMinutes ∧ u.autoOffMinutes ≤ 480 := by
  cases he with
  | setAutoOff bounds => exact bounds
  | _ => exact ht

theorem Ordered.effect (ht : t.Ordered) (hu : u.Sound) (he : t.Effect c given u) : u.Ordered :=
  ⟨hu, pairwise_effect (fun _ _ => id) ht.ascending he, autoOff_effect ht.autoOff he⟩

theorem ordered_default : (default : ScheduleTable).Ordered where
  toSound := sound_default
  ascending := .nil
  autoOff := nofun

theorem Ordered.change (ht : t.Ordered) (hm : ∀ m, c = .reload m → m.Ready) :
    (t.change c).Ordered := by
  unfold ScheduleTable.change
  split
  · next given u ha =>
    have hu : u.Sound := sound_of_attempt ht.toSound ha
    exact ht.effect hu (effect_of_attempt ht.toSound hm ha)
  · exact ht

theorem Ordered.changes (ht : t.Ordered) {cs : List Change} (hcs : ∀ m, .reload m ∈ cs → m.Ready) :
    (t.changes cs).Ordered := by
  refine List.foldlRecOn (motive := Ordered) cs _ ht ?_
  intro u hu c hc
  refine hu.change ?_
  rintro m rfl
  exact hcs m hc

theorem highestId_of_effect (he : t.Effect c given u) (hc : ∀ m, c ≠ .reload m) :
    (given = none ∧ u.highestId = t.highestId) ∨
      ∃ id, given = some id ∧ t.highestId < id ∧ u.highestId = id := by
  cases he with
  | added above fresh => exact .inr ⟨_, rfl, above, rfl⟩
  | updated hi => exact .inl ⟨rfl, rfl⟩
  | removed hi => exact .inl ⟨rfl, rfl⟩
  | enabled hi => exact .inl ⟨rfl, rfl⟩
  | setAutoOff bounds => exact .inl ⟨rfl, rfl⟩
  | @reloaded m => exact absurd rfl (hc m)

theorem issued_spec (ht : t.Sound) {cs : List Change} (hcs : ∀ m, .reload m ∉ cs) :
    (t.issued cs).Pairwise (· < ·) ∧ (∀ id ∈ t.issued cs, t.highestId < id) ∧
      (t.changes cs).highestId = (t.issued cs).getLast?.getD t.highestId := by
  -- The table is free in the induction: an addition raises the highest id for all that follow.
  induction cs generalizing t with
  | nil => exact ⟨.nil, nofun, rfl⟩
  | cons c cs ih =>
    have hc (m : Medium) : c ≠ .reload m := fun h => hcs m (h ▸ List.mem_cons_self ..)
    have hrest (m : Medium) : .reload m ∉ cs := fun h => hcs m (List.mem_cons_of_mem _ h)
    rw [issued, show t.changes (c :: cs) = (t.change c).changes cs from rfl, change]
    cases ha : t.attempt c with
    | error e => exact ih ht hrest
    | ok p =>
      obtain ⟨given, u⟩ := p
      obtain ⟨hup, habove, hlast⟩ := ih (sound_of_attempt ht ha) hrest
      have he := effect_of_attempt ht (fun m h => absurd h (hc m)) ha
      rcases highestId_of_effect he hc with ⟨rfl, hsame⟩ | ⟨id, rfl, hid, hhighest⟩
      · rw [hsame] at habove hlast
        exact ⟨hup, habove, hlast⟩
      · rw [hhighest] at habove hlast
        refine ⟨List.pairwise_cons.mpr ⟨habove, hup⟩, ?_, ?_⟩
        · intro i hi
          rcases List.mem_cons.mp hi with rfl | hi
          · exact hid
          · exact UInt8.lt_trans hid (habove i hi)
        · show (u.changes cs).highestId = (id :: u.issued cs).getLast?.getD t.highestId
          rw [hlast, List.getLast?_cons]
          rfl

theorem exhausted_iff (ht : t.Sound) : t.Exhausted ↔ capacity ≤ t.size ∨ t.lastId = 255 := by
  have hsize : t.size = 10 ↔ capacity ≤ t.size :=
    ⟨fun h => Nat.le_of_eq h.symm, fun h => Nat.le_antisymm ht.size_le h⟩
  rw [Exhausted, hsize, lastId_eq_greatest]

theorem add_cases (ht : t.Sound) (e : ScheduleEntry) :
    (¬e.Timed ∧ ∃ r, t.add e = .error (.invalid r)) ∨
    (e.Timed ∧ t.Exhausted ∧ t.add e = .error .scheduleTableFull) ∨
    (e.Timed ∧ ¬t.Exhausted ∧ ∃ p, t.add e = .ok p) := by
  rw [exhausted_iff ht, add]
  rcases e.validate_cases with ⟨htimed, hv⟩ | ⟨htimed, r, hv⟩
  · by_cases hfull : capacity ≤ t.size ∨ t.lastId = 255
    · refine .inr (.inl ⟨htimed, hfull, ?_⟩)
      simp only [hv, if_pos hfull]
      rfl
    · refine .inr (.inr ⟨htimed, hfull, ?_⟩)
      simp only [hv, if_neg hfull]
      exact ⟨_, rfl⟩
  · exact .inl ⟨htimed, r, by rw [hv]; rfl⟩

theorem add_iff (ht : t.Sound) (e : ScheduleEntry) :
    (∃ p, t.add e = .ok p) ↔ e.Timed ∧ ¬t.Exhausted := by
  rcases t.add_cases ht e with ⟨htimed, r, ha⟩ | ⟨htimed, hfull, ha⟩ | ⟨htimed, hroom, p, ha⟩
  · simp [ha, htimed]
  · simp [ha, hfull]
  · exact iff_of_true ⟨p, ha⟩ ⟨htimed, hroom⟩

theorem add_eq_error_iff (ht : t.Sound) (e : ScheduleEntry) :
    ((∃ r, t.add e = .error (.invalid r)) ↔ ¬e.Timed) ∧
      (t.add e = .error .scheduleTableFull ↔ e.Timed ∧ t.Exhausted) := by
  rcases t.add_cases ht e with ⟨htimed, r, ha⟩ | ⟨htimed, hfull, ha⟩ | ⟨htimed, hroom, p, ha⟩
  · simp [ha, htimed]
  · simp [ha, htimed, hfull]
  · simp [ha, htimed, hroom]

theorem exists_id_iff (t : ScheduleTable) (id : UInt8) :
    (∃ f ∈ t.entries, f.id = id) ↔ (t.entries.findIdx? fun f => f.id = id) ≠ none := by
  rw [ne_eq, List.findIdx?_eq_none_iff]
  simp

theorem modify_iff (id : UInt8) (f : ScheduleEntry → ScheduleEntry) :
    (∃ u, t.modify id f = .ok u) ↔ ∃ e ∈ t.entries, e.id = id := by
  rw [exists_id_iff, modify]
  cases t.entries.findIdx? fun e => e.id = id with
  | none => simp
  | some i => simp

theorem update_iff (id : UInt8) (e : ScheduleEntry) :
    (∃ u, t.update id e = .ok u) ↔ e.Timed ∧ ∃ f ∈ t.entries, f.id = id := by
  rw [← modify_iff id fun _ => { e with id }, update]
  rcases e.validate_cases with ⟨htimed, hv⟩ | ⟨htimed, r, hv⟩
  · rw [hv]
    exact (and_iff_right htimed).symm
  · rw [hv]
    exact iff_of_false nofun fun h => htimed h.1

theorem remove_iff (id : UInt8) :
    (∃ u, t.remove id = .ok u) ↔ ∃ f ∈ t.entries, f.id = id := by
  unfold remove get?
  cases hf : t.entries.find? fun f => f.id = id with
  | none =>
    refine iff_of_false nofun ?_
    simpa using hf
  | some f =>
    have hid : f.id = id := by simpa using List.find?_some hf
    exact iff_of_true ⟨_, rfl⟩ ⟨f, List.mem_of_find?_eq_some hf, hid⟩

theorem setAutoOff_iff (enabled : Bool) (minutes : UInt16) :
    (∃ u, t.setAutoOff enabled minutes = .ok u) ↔
      (enabled = true → 1 ≤ minutes ∧ minutes ≤ greatestAutoOff) := by
  unfold ScheduleTable.setAutoOff
  split
  · next h => exact iff_of_false nofun fun hb => h.2 (hb h.1)
  · next h => exact iff_of_true ⟨_, rfl⟩ fun he => Decidable.not_not.mp fun hb => h ⟨he, hb⟩

theorem exists_map_eq_ok {α β : Type} {x : Except Error α} {f : α → β} :
    (∃ b, x.map f = .ok b) ↔ ∃ a, x = .ok a := by
  cases x with
  | error e => exact iff_of_false nofun nofun
  | ok a => exact iff_of_true ⟨_, rfl⟩ ⟨_, rfl⟩

theorem attempt_iff (ht : t.Sound) (hm : ∀ m, c = .reload m → m.Ready) :
    (∃ p, t.attempt c = .ok p) ↔ t.Admits c := by
  cases c with
  | add e => rw [attempt, exists_map_eq_ok, add_iff ht, Admits]
  | update id e => rw [attempt, exists_map_eq_ok, update_iff, Admits]
  | remove id => rw [attempt, exists_map_eq_ok, remove_iff, Admits]
  | enable id enabled =>
    rw [attempt, exists_map_eq_ok, Admits]
    exact modify_iff id _
  | setAutoOff enabled minutes =>
    rw [attempt, exists_map_eq_ok]
    exact setAutoOff_iff enabled minutes
  | reload m =>
    refine iff_of_true ?_ trivial
    have hs := save_eq_ok (hm m rfl) ht.size_le
    rw [attempt]
    split
    · exact ⟨_, rfl⟩
    · next e m' h =>
      rw [h] at hs
      cases hs

/-- Whatever was done to a table since it was empty: it is in order, the ids that it gives out until
it is loaded again go up, and a further change is granted just if the table admits it. -/
theorem ordered_changes {cs : List Change} (hcs : ∀ m, .reload m ∈ cs → m.Ready) :
    let t := (default : ScheduleTable).changes cs
    t.Ordered ∧
    (∀ later, (∀ m, .reload m ∉ later) →
      (t.issued later).Pairwise (· < ·) ∧ (∀ id ∈ t.issued later, t.highestId < id) ∧
        (t.changes later).highestId = (t.issued later).getLast?.getD t.highestId) ∧
    (∀ e : ScheduleEntry, ((∃ r, t.add e = .error (.invalid r)) ↔ ¬e.Timed) ∧
      (t.add e = .error .scheduleTableFull ↔ e.Timed ∧ t.Exhausted)) ∧
    ∀ c, (∀ m, c = .reload m → m.Ready) →
      ((∃ p, t.attempt c = .ok p) ↔ t.Admits c) ∧
      match t.attempt c with
      | .ok (given, u) => t.change c = u ∧ t.Effect c given u
      | .error _ => t.change c = t := by
  intro t
  have ht : t.Ordered := ordered_default.changes hcs
  refine ⟨ht, fun later hlater => issued_spec ht.toSound hlater, add_eq_error_iff ht.toSound, ?_⟩
  intro c hm
  refine ⟨attempt_iff ht.toSound hm, ?_⟩
  unfold change
  cases ha : t.attempt c with
  | error e => rfl
  | ok p => exact ⟨rfl, effect_of_attempt ht.toSound hm ha⟩

theorem ordered_changes_after_reload :
    let e := ScheduleEntry.daily 6 30 .turnOn
    let cs : List Change := [.add e, .add e, .remove 2, .reload (.reliable .empty)]
    let t := (default : ScheduleTable).changes cs
    (∀ m, .reload m ∈ cs → m.Ready) ∧ t.Ordered ∧ t.highestId = 0 ∧
      (t.issued [.add e, .remove 2, .add e, .update 3 e]).Pairwise (· < ·) ∧
      t.issued [.add e, .remove 2, .add e, .update 3 e] = [2, 3] := by
  intro e cs t
  have hcs : ∀ m, .reload m ∈ cs → m.Ready := by
    intro m hm
    obtain rfl : m = .reliable .empty := by simpa [cs] using hm
    exact ⟨rfl, fun _ => rfl⟩
  obtain ⟨ht, hissued, -, -⟩ := ordered_changes hcs
  obtain ⟨hup, -, -⟩ := hissued [.add e, .remove 2, .add e, .update 3 e] (by simp)
  exact ⟨hcs, ht, by decide +kernel, hup, by decide +kernel⟩

end ScheduleTable

end Espresso
