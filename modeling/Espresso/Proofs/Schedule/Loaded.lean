import Mathlib.Data.List.Nodup
import Espresso.Proofs.Schedule.Changes
import Espresso.Proofs.Keys

namespace Espresso

theorem ScheduleEntry.isValid_iff (e : ScheduleEntry) : e.isValid = true ↔ e.Timed := by
  rcases e.validate_cases with ⟨htimed, hv⟩ | ⟨htimed, r, hv⟩
  · rw [isValid, hv]
    exact iff_of_true rfl htimed
  · rw [isValid, hv]
    exact iff_of_false Bool.false_ne_true htimed

namespace ScheduleTable

structure Proper (t : ScheduleTable) : Prop extends t.Sound where
  distinct : t.entries.Pairwise fun e f => e.id ≠ f.id
  autoOff : t.autoOffEnabled = true → 1 ≤ t.autoOffMinutes ∧ t.autoOffMinutes ≤ 480

/-- A request by id concerns the entry with that id, and no other. -/
structure Addressable (t : ScheduleTable) : Prop where
  get : ∀ id e, t.get? id = some e ↔ e ∈ t.entries ∧ e.id = id
  update : ∀ id e u, t.update id e = .ok u →
    u.entries = t.entries.map fun f => if f.id = id then { e with id } else f
  enable : ∀ id enabled u, t.enable id enabled = .ok u →
    u.entries = t.entries.map fun f => if f.id = id then { f with enabled } else f
  remove : ∀ id u, t.remove id = .ok u → u.entries = t.entries.filter fun f => f.id ≠ id

def stored? (m : Medium) : Option ScheduleTable := (m.read address).toOption.bind unpack.run?

def retained (t : ScheduleTable) : List ScheduleEntry :=
  t.entries.filter fun e => e.id ≠ 0 && e.isValid

structure Trusted (t : ScheduleTable) : Prop where
  distinct : t.retained.Pairwise fun e f => e.id ≠ f.id
  autoOff : t.autoOffEnabled = true → 1 ≤ t.autoOffMinutes ∧ t.autoOffMinutes ≤ 480

variable {t u : ScheduleTable} {id : UInt8} {m : Medium}

theorem proper_default : (default : ScheduleTable).Proper :=
  ⟨sound_default, .nil, nofun⟩

theorem Proper.change {c : Change} (ht : t.Proper) (hm : ∀ m, c = .reload m → m.Ready) :
    (t.change c).Proper := by
  unfold ScheduleTable.change
  split
  · next given u ha =>
    have he := effect_of_attempt ht.toSound hm ha
    exact ⟨sound_of_attempt ht.toSound ha,
      pairwise_effect (R := (· ≠ ·)) (fun _ _ => UInt8.ne_of_lt) ht.distinct he,
      autoOff_effect ht.autoOff he⟩
  · exact ht

theorem Proper.changes (ht : t.Proper) {cs : List Change} (hcs : ∀ m, .reload m ∈ cs → m.Ready) :
    (t.changes cs).Proper := by
  refine List.foldlRecOn (motive := Proper) cs _ ht ?_
  intro u hu c hc
  refine hu.change ?_
  rintro m rfl
  exact hcs m hc

theorem Proper.get?_eq_some (ht : t.Proper) (id : UInt8) (e : ScheduleEntry) :
    t.get? id = some e ↔ e ∈ t.entries ∧ e.id = id := by
  have hfound {f : ScheduleEntry} (h : t.get? id = some f) : f ∈ t.entries ∧ f.id = id :=
    ⟨List.mem_of_find?_eq_some h, by simpa using List.find?_some h⟩
  refine ⟨hfound, ?_⟩
  rintro ⟨he, hid⟩
  cases hf : t.get? id with
  | none => exact absurd hid (by simpa using List.find?_eq_none.mp hf e he)
  | some f =>
    obtain ⟨hmem, hfid⟩ := hfound hf
    have hn : (t.entries.map ScheduleEntry.id).Nodup := List.pairwise_map.mpr ht.distinct
    rw [List.inj_on_of_nodup_map hn hmem he (hfid.trans hid.symm)]

theorem Proper.entries_of_modify {f : ScheduleEntry → ScheduleEntry} (ht : t.Proper)
    (h : t.modify id f = .ok u) :
    u.entries = t.entries.map fun e => if e.id = id then f e else e := by
  obtain ⟨i, hi, rfl, rfl⟩ := effect_of_modify h
  refine List.ext_getElem (by simp) fun j hj hj' => ?_
  rw [List.getElem_map, List.getElem_set]
  by_cases hij : i = j
  · subst hij
    rw [if_pos rfl, if_pos rfl]
  · rw [if_neg hij, if_neg]
    have hlt : j < t.entries.length := by simpa using hj
    have hdistinct := List.pairwise_iff_getElem.mp ht.distinct
    rcases Nat.lt_or_gt_of_ne hij with hij | hij
    · exact (hdistinct i j hi hlt hij).symm
    · exact hdistinct j i hlt hi hij

theorem Proper.addressable (ht : t.Proper) : t.Addressable where
  get := ht.get?_eq_some
  update id e u h := ht.entries_of_modify (update_eq_ok h).2
  enable id enabled u h := ht.entries_of_modify h
  remove id u h := by
    rw [remove_eq_ok h]
    exact eraseP_eq_filter ht.distinct id

theorem mem_retained {e : ScheduleEntry} : e ∈ t.retained ↔ e ∈ t.entries ∧ e.id ≠ 0 ∧ e.Timed := by
  rw [retained, List.mem_filter, Bool.and_eq_true, decide_eq_true_eq, e.isValid_iff]

theorem load_eq (m : Medium) :
    load m = (stored? m).elim default fun s => { s with entries := s.retained } := by
  rw [load, stored?]
  cases m.read address with
  | error e => rfl
  | ok bytes =>
    show ofBytes bytes = (unpack.run? bytes).elim _ _
    rw [ofBytes]
    cases unpack.run? bytes <;> rfl

theorem proper_load_iff : (load m).Proper ↔ ∀ s, stored? m = some s → s.Trusted := by
  have hl := load_eq m
  cases hs : stored? m with
  | none =>
    rw [hs] at hl
    rw [hl]
    exact iff_of_true proper_default nofun
  | some s =>
    rw [hs] at hl
    constructor
    · intro hp s' h
      obtain rfl := Option.some.inj h
      rw [hl] at hp
      exact ⟨hp.distinct, hp.autoOff⟩
    · intro ht
      have hsound := sound_load m
      rw [hl] at hsound ⊢
      exact ⟨hsound, (ht s rfl).distinct, (ht s rfl).autoOff⟩

theorem highestId_load (m : Medium) : (load m).highestId = 0 := by
  rw [load_eq]
  cases hs : stored? m with
  | none => rfl
  | some s =>
    obtain ⟨bytes, -, hs⟩ := Option.bind_eq_some_iff.mp hs
    have hzero : s.highestId = 0 := (of_unpack hs).2
    exact hzero

/-- Loading leaves out of any blob what no table takes in, and that alone. Whether an id stands for
one entry and the rule for idle machines is in range it takes on trust: it is so just if it is so in
the blob, then it stays so, and if it is not, saving and loading the table does not mend it. -/
theorem load_sanitises (m : Medium) :
    let t := load m
    (t.size ≤ 10 ∧ ∀ e ∈ t.entries, e.id ≠ 0 ∧ e.Timed) ∧
    (∀ s, stored? m = some s → t.entries.Sublist s.entries ∧
      ∀ e ∈ s.entries, e.id ≠ 0 → e.Timed → e ∈ t.entries) ∧
    (t.Proper ↔ ∀ s, stored? m = some s → s.Trusted) ∧
    (t.Proper → t.Addressable ∧
      ∀ cs, (∀ m', .reload m' ∈ cs → m'.Ready) → (t.changes cs).Proper) ∧
    ∀ m' : Medium, m'.Ready → load (t.save m').2 = t := by
  intro t
  have ht : t.Sound := sound_load m
  refine ⟨⟨ht.size_le, ?_⟩, ?_, proper_load_iff,
    fun hp => ⟨hp.addressable, fun _ => hp.changes⟩, ?_⟩
  · intro e he
    exact ⟨ht.id_ne_zero e he, e.isValid_iff.mp (ht.valid e he)⟩
  · intro s hs
    have hentries : t.entries = s.retained := by
      show (load m).entries = s.retained
      rw [load_eq, hs]
      rfl
    rw [hentries]
    exact ⟨List.filter_sublist, fun e he hid htimed => mem_retained.mpr ⟨he, hid, htimed⟩⟩
  · intro m' hm'
    rw [load_of_save hm' ht, ← highestId_load m]

theorem load_sanitises_foreign_entries :
    let e : ScheduleEntry := { ScheduleEntry.daily 7 30 .turnOn with id := 3 }
    let s : ScheduleTable := ⟨[{ e with hour := 24 }, { e with id := 0 }, e], true, 480, 9⟩
    let m := (s.save (.reliable .empty)).2
    (load m).entries = [e] ∧ (load m).Proper ∧ (load m).Addressable := by
  intro e s m
  have hstored : stored? m = some { s with highestId := 0 } := by decide +kernel
  have hkept : s.retained = [e] := by decide +kernel
  obtain ⟨-, -, hiff, hproper, -⟩ := load_sanitises m
  have hp : (load m).Proper := by
    refine hiff.mpr fun s' h => ?_
    obtain rfl := Option.some.inj (hstored.symm.trans h)
    exact ⟨hkept ▸ List.pairwise_singleton .., fun _ => by decide⟩
  refine ⟨?_, hp, (hproper hp).1⟩
  rw [load_eq, hstored]
  exact hkept

theorem load_keeps_ambiguous_id :
    let e : ScheduleEntry := { ScheduleEntry.daily 7 0 .turnOn with id := 1 }
    let s : ScheduleTable := ⟨[e, { e with hour := 8 }], true, 0, 0⟩
    let m := (s.save (.reliable .empty)).2
    (load m).entries.map ScheduleEntry.id = [1, 1] ∧
      (load m).autoOffEnabled = true ∧ (load m).autoOffMinutes = 0 ∧
      ((load m).remove 1).toOption.bind (fun u => u.get? 1) = some { e with hour := 8 } ∧
      ¬(load m).Proper := by
  intro e s m
  have hids : (load m).entries.map ScheduleEntry.id = [1, 1] := by decide +kernel
  refine ⟨hids, by decide +kernel, by decide +kernel, by decide +kernel, fun hp => ?_⟩
  have hn := List.pairwise_map.mpr hp.distinct
  rw [hids] at hn
  exact absurd hn (by decide)

end ScheduleTable

end Espresso
