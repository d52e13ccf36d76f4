import Espresso.Proofs.Packed.Cut
import Espresso.Proofs.Schedule.RoundTrip
import Espresso.Statistics

namespace Espresso

open Packed Packed.Reader

namespace Statistics

theorem takes_unpack (s : Statistics) : unpack.Takes s.pack s := by
  simp only [pack, List.append_assoc]
  rw [← List.singleton_append]
  apply (takes_byte _).bind
  apply (takes_uint32 _).bind
  apply (takes_uint32 _).bind
  apply (takes_single _).bind
  apply (takes_uint32 _).bind
  apply (takes_uint32 _).bind
  apply (takes_single _).bind
  iterate 9 apply (takes_uint32 _).bind
  exact (takes_uint32 _).bind_pure (if_pos rfl)

theorem stable_unpack : unpack.Stable := by
  refine stable_byte.bind fun _ => ?_
  refine stable_uint32.bind fun _ => ?_
  refine stable_uint32.bind fun _ => ?_
  refine stable_single.bind fun _ => ?_
  refine stable_uint32.bind fun _ => ?_
  refine stable_uint32.bind fun _ => ?_
  refine stable_single.bind fun _ => ?_
  iterate 10 refine stable_uint32.bind fun _ => ?_
  exact Stable.ite (stable_pure _) stable_failure

theorem unpack_of_version {v : UInt8} (hv : v ≠ version) (rest : Bytes) :
    unpack (v :: rest) = none := by
  rw [unpack, byte_bind_cons]
  -- The version is looked at only behind the sixteen fields.
  iterate 16 refine bind_eq_none (fun _ _ => ?_) _
  rw [if_neg hv]
  rfl

theorem length_pack_le (s : Statistics) : s.pack.length ≤ 79 := by
  have hcount (n : UInt32) : (Packed.varint n.toNat).length ≤ 5 :=
    length_varint_le 4 (Nat.lt_of_lt_of_le n.toNat_lt (by decide))
  have hsingle (x : Single) : (Packed.single x).length = 4 := rfl
  simp only [pack, List.length_append, List.length_cons, hsingle]
  grind

variable {m : Medium} {s : Statistics}

theorem length_pack_le_capacity (s : Statistics) : s.pack.length ≤ Store.capacity :=
  Nat.le_trans s.length_pack_le (by decide)

theorem load_of_read {bytes : Bytes} (hr : m.read address = .ok bytes) :
    load m = (unpack.run? bytes).getD zero := by
  rw [load, hr]

theorem load_save (hm : m.Ready) (s : Statistics) : load (s.save m).2 = s := by
  rw [save, load_of_read (hm.read_write s.length_pack_le_capacity), s.takes_unpack.run?]
  rfl

theorem load_of_spoiled {bytes : Bytes} (hr : m.read address = .ok bytes)
    (spoiled : Spoiled s.pack bytes) : load m = zero := by
  rw [load_of_read hr, s.takes_unpack.run?_of_spoiled stable_unpack @unpack_of_version spoiled]
  rfl

end Statistics

theorem ScheduleEntry.stable_unpack : unpack.Stable := by
  refine stable_byte.bind fun _ => ?_
  refine stable_bool.bind fun _ => ?_
  refine stable_byte.bind fun _ => ?_
  refine stable_byte.bind fun _ => ?_
  refine stable_byte.bind fun _ => ?_
  refine stable_choice.bind fun _ => ?_
  refine stable_choice.bind fun _ => ?_
  refine (stable_text _).bind fun _ => ?_
  exact stable_pure _

namespace ScheduleTable

variable {m : Medium} {t : ScheduleTable}

theorem stable_unpack : unpack.Stable := by
  refine stable_byte.bind fun _ => ?_
  refine (ScheduleEntry.stable_unpack.list _).bind fun _ => ?_
  refine stable_bool.bind fun _ => ?_
  refine stable_uint16.bind fun _ => ?_
  exact Stable.ite (stable_pure _) stable_failure

theorem unpack_of_version {v : UInt8} (hv : v ≠ version) (rest : Bytes) :
    unpack (v :: rest) = none := by
  rw [unpack, byte_bind_cons]
  iterate 3 refine bind_eq_none (fun _ _ => ?_) _
  rw [if_neg hv]
  rfl

theorem load_of_spoiled {bytes : Bytes} (ht : t.size ≤ capacity)
    (hr : m.read address = .ok bytes) (spoiled : Spoiled t.pack bytes) : load m = default := by
  rw [load, hr]
  show ofBytes bytes = default
  rw [ofBytes, (takes_unpack ht).run?_of_spoiled stable_unpack @unpack_of_version spoiled]

end ScheduleTable

theorem reads_back_unless_spoiled {m : Medium} (hm : m.Ready) (s : Statistics) {t : ScheduleTable}
    (ht : t.Sound) :
    (((s.save m).1 = .ok () ∧ (s.save m).2.read Statistics.address = .ok s.pack ∧
      Statistics.load (s.save m).2 = s) ∧
      ∀ m' bytes, m'.read Statistics.address = .ok bytes → Spoiled s.pack bytes →
        Statistics.load m' = .zero) ∧
    ((t.save m).1 = .ok () ∧ (t.save m).2.read ScheduleTable.address = .ok t.pack ∧
      ScheduleTable.load (t.save m).2 = { t with highestId := 0 } ∧
      (ScheduleTable.load (t.save m).2).same t = true) ∧
      ∀ m' bytes, m'.read ScheduleTable.address = .ok bytes → Spoiled t.pack bytes →
        ScheduleTable.load m' = default := by
  have hs : s.pack.length ≤ Store.capacity := s.length_pack_le_capacity
  have hl : t.pack.length ≤ Store.capacity := ScheduleTable.length_pack_le_capacity ht.size_le
  refine ⟨⟨⟨hm.write_eq_ok hs, hm.read_write hs, Statistics.load_save hm s⟩, ?_⟩,
    ⟨hm.write_eq_ok hl, hm.read_write hl, ScheduleTable.load_of_save hm ht,
      ScheduleTable.load_save hm ht⟩, ?_⟩
  · intro m' bytes hr spoiled
    exact Statistics.load_of_spoiled hr spoiled
  · intro m' bytes hr spoiled
    exact ScheduleTable.load_of_spoiled ht.size_le hr spoiled

theorem reads_back_unless_spoiled_at_the_limits :
    let s : Statistics := { Statistics.zero with
      totalShots := 4294967295, totalEnergy := Binary.ofBits 0xFFC00001, sessionShots := 128 }
    let e : ScheduleEntry := { (ScheduleEntry.daily 23 59 .turnOff).named "Ünïcode" with id := 255 }
    let t : ScheduleTable := ⟨[e], true, 480, 255⟩
    let m := Medium.reliable .empty
    let cut := (s.save m).2.write Statistics.address s.pack.dropLast
    let newer := (t.save m).2.write ScheduleTable.address (t.pack.set 0 2)
    m.Ready ∧ t.Sound ∧ Statistics.load (s.save m).2 = s ∧
      ScheduleTable.load (t.save m).2 = { t with highestId := 0 } ∧
      Statistics.load cut.2 = .zero ∧ ScheduleTable.load newer.2 = default := by
  intro s e t m cut newer
  have hm : m.Ready := ⟨rfl, fun _ => rfl⟩
  have ht : t.Sound := by
    refine ⟨by decide, ?_, ?_⟩
    · intro f hf
      obtain rfl := List.mem_singleton.mp hf
      decide
    · intro f hf
      obtain rfl := List.mem_singleton.mp hf
      decide
  obtain ⟨⟨⟨-, -, hs⟩, hcut⟩, ⟨-, -, hload, -⟩, hnewer⟩ := reads_back_unless_spoiled hm s ht
  refine ⟨hm, ht, hs, hload, ?_, ?_⟩
  · refine hcut _ s.pack.dropLast ?_ (.cut (List.dropLast_prefix _) (by decide +kernel))
    exact (hm.write _ _).read_write (by decide +kernel)
  · refine hnewer _ (t.pack.set 0 2) ?_ (.version (by decide +kernel))
    exact (hm.write _ _).read_write (by decide +kernel)

end Espresso
