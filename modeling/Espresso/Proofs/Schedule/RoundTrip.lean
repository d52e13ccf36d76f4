import Espresso.Proofs.Schedule.Table
import Espresso.Proofs.Storage

namespace Espresso

open Packed.Reader

namespace ScheduleEntry

theorem takes_unpack (e : ScheduleEntry) : unpack.Takes e.pack e := by
  have haction : e.action ∈ (Named.all : List ScheduleAction) := by cases e.action <;> decide
  have hstrategy : e.strategy ∈ (Named.all : List HeatingStrategy) := by cases e.strategy <;> decide
  have hpack : e.pack = [e.id] ++ (Packed.bool e.enabled ++ ([e.days.mask] ++ ([e.hour] ++
      ([e.minute] ++ (Packed.choice e.action ++ (Packed.choice e.strategy ++
        Packed.text e.name)))))) := by
    simp [pack]
  rw [hpack]
  apply (takes_byte _).bind
  apply (takes_bool _).bind
  apply (takes_byte _).bind
  apply (takes_byte _).bind
  apply (takes_byte _).bind
  apply (takes_choice haction (by decide)).bind
  apply (takes_choice hstrategy (by decide)).bind
  exact (takes_text ⟨e.name, e.name_fits⟩ (by decide)).bind_pure rfl

theorem length_pack_le (e : ScheduleEntry) : e.pack.length ≤ 36 := by
  have hchoice {n : Nat} (h : n < 128) : (Packed.varint n).length ≤ 1 :=
    Packed.length_varint_le 0 h
  have haction : (Packed.choice e.action).length ≤ 1 := hchoice (by cases e.action <;> decide)
  have hstrategy : (Packed.choice e.strategy).length ≤ 1 := hchoice (by cases e.strategy <;> decide)
  have hname : (Text.toBytes e.name).length ≤ 23 := by
    rw [Text.length_toBytes]
    exact e.name_fits
  have hcount : (Packed.varint (Text.toBytes e.name).length).length ≤ 1 := hchoice (by omega)
  simp only [pack, Packed.bool, Packed.text, List.length_append, List.length_cons, List.length_nil]
  omega

end ScheduleEntry

namespace ScheduleTable

theorem takes_unpack {t : ScheduleTable} (ht : t.size ≤ capacity) :
    unpack.Takes t.pack { t with highestId := 0 } := by
  have hpack : t.pack = [version] ++ (Packed.list ScheduleEntry.pack t.entries ++
      (Packed.bool t.autoOffEnabled ++ Packed.varint t.autoOffMinutes.toNat)) := by
    simp [pack]
  rw [hpack]
  apply (takes_byte _).bind
  apply (takes_list (fun e _ => e.takes_unpack) ht (by decide)).bind
  apply (takes_bool _).bind
  exact (takes_uint16 _).bind_pure (if_pos rfl)

theorem ofBytes_pack {t : ScheduleTable} (ht : t.Sound) :
    ofBytes t.pack = { t with highestId := 0 } := by
  rw [ofBytes, (takes_unpack ht.size_le).run?]
  have hf : (t.entries.filter fun e => e.id ≠ 0 && e.isValid) = t.entries := by
    apply List.filter_eq_self.mpr
    intro e he
    simp [ht.id_ne_zero e he, ht.valid e he]
  dsimp only
  rw [hf]

theorem length_pack_le {t : ScheduleTable} (ht : t.size ≤ capacity) : t.pack.length ≤ 400 := by
  have hentries (es : List ScheduleEntry) : (es.flatMap ScheduleEntry.pack).length ≤ 36 * es.length := by
    induction es with
    | nil => exact Nat.le_refl _
    | cons e es ih =>
      have he := e.length_pack_le
      simp only [List.flatMap_cons, List.length_append, List.length_cons]
      omega
  have hes := hentries t.entries
  have hcount : (Packed.varint t.entries.length).length ≤ 1 :=
    Packed.length_varint_le 0 (Nat.lt_of_le_of_lt ht (by decide))
  have hminutes : (Packed.varint t.autoOffMinutes.toNat).length ≤ 3 :=
    Packed.length_varint_le 2 (Nat.lt_of_lt_of_le t.autoOffMinutes.toNat_lt (by decide))
  have hsize : t.entries.length ≤ 10 := ht
  simp only [pack, Packed.list, Packed.bool, List.length_append, List.length_cons, List.length_nil]
  omega

theorem length_pack_le_capacity {t : ScheduleTable} (ht : t.size ≤ capacity) :
    t.pack.length ≤ Store.capacity :=
  Nat.le_trans (length_pack_le ht) (by decide)

variable {m : Medium} {t : ScheduleTable}

theorem same_of_entries {s : ScheduleTable} (he : s.entries = t.entries)
    (ho : s.autoOffEnabled = t.autoOffEnabled) (hm : s.autoOffMinutes = t.autoOffMinutes) :
    s.same t = true := by
  simp [same, he, ho, hm]

theorem load_congr {m' : Medium} (h : m'.read address = m.read address) : load m' = load m := by
  rw [load, h]
  rfl

theorem save_eq_ok (h : m.Ready) (ht : t.size ≤ capacity) : (t.save m).1 = .ok () :=
  h.write_eq_ok (length_pack_le_capacity ht)

theorem load_of_save (h : m.Ready) (ht : t.Sound) : load (t.save m).2 = { t with highestId := 0 } := by
  rw [load, save, h.read_write (length_pack_le_capacity ht.size_le)]
  exact ofBytes_pack ht

theorem load_save (h : m.Ready) (ht : t.Sound) : (load (t.save m).2).same t = true := by
  rw [load_of_save h ht]
  exact same_of_entries rfl rfl rfl

end ScheduleTable

end Espresso
