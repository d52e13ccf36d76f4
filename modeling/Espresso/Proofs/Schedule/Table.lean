import Espresso.Schedule.Table
import Espresso.Proofs.Packed

namespace Espresso

namespace ScheduleTable

structure Sound (t : ScheduleTable) : Prop where
  size_le : t.size ≤ capacity
  id_ne_zero : ∀ e ∈ t.entries, e.id ≠ 0
  valid : ∀ e ∈ t.entries, e.isValid

variable {t u : ScheduleTable} {id : UInt8}

theorem sound_default : (default : ScheduleTable).Sound where
  size_le := Nat.zero_le _
  id_ne_zero := by
    intro e he
    cases he
  valid := by
    intro e he
    cases he

theorem isValid_of_validate {e : ScheduleEntry} (h : e.validate = .ok ()) : e.isValid := by
  rw [ScheduleEntry.isValid, h]
  rfl

theorem isValid_with_id (e : ScheduleEntry) (id : UInt8) : { e with id }.isValid = e.isValid := rfl

theorem add_eq_ok {e : ScheduleEntry} (h : t.add e = .ok (id, u)) :
    e.validate = .ok () ∧ t.size < capacity ∧ t.lastId ≠ 255 ∧ id = t.lastId + 1 ∧
      u = { t with entries := t.entries ++ [{ e with id }], highestId := id } := by
  unfold add at h
  cases hv : e.validate with
  | error e =>
    rw [hv] at h
    cases h
  | ok _ =>
    rw [hv] at h
    by_cases hf : capacity ≤ t.size ∨ t.lastId = 255
    · simp only [hf, if_true] at h
      cases h
    · simp only [hf, if_false] at h
      obtain ⟨rfl, rfl⟩ := Prod.mk.inj (Except.ok.inj h)
      obtain ⟨hs, hl⟩ := not_or.mp hf
      exact ⟨rfl, Nat.lt_of_not_le hs, hl, rfl, rfl⟩

theorem modify_eq_ok {f : ScheduleEntry → ScheduleEntry} (h : t.modify id f = .ok u) :
    ∃ i, (t.entries.findIdx? fun e => e.id = id) = some i ∧
      u = { t with entries := t.entries.modify i f } := by
  unfold modify at h
  split at h
  · cases h
  · next i hi => exact ⟨i, hi, (Except.ok.inj h).symm⟩

theorem update_eq_ok {e : ScheduleEntry} (h : t.update id e = .ok u) :
    e.validate = .ok () ∧ t.modify id (fun _ => { e with id }) = .ok u := by
  unfold update at h
  cases hv : e.validate with
  | error e =>
    rw [hv] at h
    cases h
  | ok _ =>
    rw [hv] at h
    exact ⟨rfl, h⟩

theorem remove_eq_ok (h : t.remove id = .ok u) :
    u = { t with entries := t.entries.eraseP fun e => e.id = id } := by
  unfold remove at h
  split at h
  · cases h
  · exact (Except.ok.inj h).symm

theorem setAutoOff_eq_ok {enabled : Bool} {minutes : UInt16}
    (h : t.setAutoOff enabled minutes = .ok u) :
    u = { t with autoOffEnabled := enabled, autoOffMinutes := minutes } := by
  unfold setAutoOff at h
  split at h
  · cases h
  · exact (Except.ok.inj h).symm

theorem Sound.add {e : ScheduleEntry} (ht : t.Sound) (h : t.add e = .ok (id, u)) : u.Sound := by
  obtain ⟨hv, hs, hl, rfl, rfl⟩ := add_eq_ok h
  have hid : t.lastId + 1 ≠ 0 := by
    intro h0
    apply hl
    rw [← UInt8.add_sub_cancel t.lastId 1, h0]
    rfl
  constructor
  · simp only [size, List.length_append, List.length_singleton] at hs ⊢
    omega
  · intro f hf
    rcases List.mem_append.mp hf with hf | hf
    · exact ht.id_ne_zero f hf
    · rw [List.mem_singleton.mp hf]
      exact hid
  · intro f hf
    rcases List.mem_append.mp hf with hf | hf
    · exact ht.valid f hf
    · rw [List.mem_singleton.mp hf, isValid_with_id]
      exact isValid_of_validate hv

theorem Sound.modify {f : ScheduleEntry → ScheduleEntry} (ht : t.Sound) (h : t.modify id f = .ok u)
    (hf : ∀ e ∈ t.entries, e.id = id → (f e).id = e.id ∧ (f e).isValid) : u.Sound := by
  obtain ⟨i, hi, rfl⟩ := modify_eq_ok h
  obtain ⟨hlt, he, -⟩ := List.findIdx?_eq_some_iff_getElem.mp hi
  have hm (e : ScheduleEntry) (hmem : e ∈ t.entries.modify i f) :
      e ∈ t.entries ∨ e = f t.entries[i] := by
    obtain ⟨j, hj, rfl⟩ := List.mem_iff_getElem.mp hmem
    rw [List.getElem_modify]
    split
    · next hij =>
      subst hij
      exact .inr rfl
    · exact .inl (List.getElem_mem _)
  have hi := hf _ (List.getElem_mem hlt) (of_decide_eq_true he)
  constructor
  · show (t.entries.modify i f).length ≤ capacity
    rw [List.length_modify]
    exact ht.size_le
  · intro e hmem
    rcases hm e hmem with hmem | rfl
    · exact ht.id_ne_zero e hmem
    · rw [hi.1]
      exact ht.id_ne_zero _ (List.getElem_mem hlt)
  · intro e hmem
    rcases hm e hmem with hmem | rfl
    · exact ht.valid e hmem
    · exact hi.2

theorem Sound.update {e : ScheduleEntry} (ht : t.Sound) (h : t.update id e = .ok u) : u.Sound := by
  obtain ⟨hv, h⟩ := update_eq_ok h
  apply ht.modify h
  intro f _ hid
  exact ⟨hid.symm, isValid_of_validate hv⟩

theorem Sound.enable {enabled : Bool} (ht : t.Sound) (h : t.enable id enabled = .ok u) :
    u.Sound := by
  apply ht.modify h
  intro f hf _
  exact ⟨rfl, ht.valid f hf⟩

theorem Sound.remove (ht : t.Sound) (h : t.remove id = .ok u) : u.Sound := by
  rw [remove_eq_ok h]
  constructor
  · exact Nat.le_trans (List.length_eraseP_le ..) ht.size_le
  · intro e he
    exact ht.id_ne_zero e (List.mem_of_mem_eraseP he)
  · intro e he
    exact ht.valid e (List.mem_of_mem_eraseP he)

theorem Sound.setAutoOff {enabled : Bool} {minutes : UInt16} (ht : t.Sound)
    (h : t.setAutoOff enabled minutes = .ok u) : u.Sound := by
  rw [setAutoOff_eq_ok h]
  exact ⟨ht.size_le, ht.id_ne_zero, ht.valid⟩

theorem of_unpack {bytes : Bytes} (h : unpack.run? bytes = some t) :
    t.size ≤ capacity ∧ t.highestId = 0 := by
  obtain ⟨⟨s, rest⟩, hs, rfl⟩ := Option.map_eq_some_iff.mp h
  obtain ⟨v, left, -, hs⟩ := Packed.Reader.bind_eq_some hs
  obtain ⟨entries, left', he, hs⟩ := Packed.Reader.bind_eq_some hs
  obtain ⟨enabled, left'', -, hs⟩ := Packed.Reader.bind_eq_some hs
  obtain ⟨minutes, left''', -, hs⟩ := Packed.Reader.bind_eq_some hs
  split at hs
  · obtain ⟨rfl, -⟩ := Prod.mk.inj (Option.some.inj hs)
    exact ⟨Packed.Reader.length_list_le he, rfl⟩
  · cases hs

theorem sound_ofBytes (bytes : Bytes) : (ofBytes bytes).Sound := by
  unfold ofBytes
  split
  · next t h =>
    constructor
    · exact Nat.le_trans (List.length_filter_le ..) (of_unpack h).1
    · intro e hmem
      have := (List.mem_filter.mp hmem).2
      simp_all
    · intro e hmem
      have := (List.mem_filter.mp hmem).2
      simp_all
  · exact sound_default

theorem sound_load (m : Medium) : (load m).Sound := by
  unfold load
  split
  · exact sound_ofBytes _
  · exact sound_default

end ScheduleTable

end Espresso
