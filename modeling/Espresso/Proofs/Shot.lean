import Espresso.Proofs.Packed
import Espresso.Proofs.Storage
import Espresso.Shot.History

namespace Espresso

def Shot.Sound (s : Shot) : Prop := ∀ n, s.rating = some n → n ≠ 0 ∧ n ≤ greatestRating

theorem Shot.sound_ratingOf {n : UInt8} (h : n ≤ greatestRating) (s : Shot) :
    { s with rating := ratingOf n }.Sound := by
  intro m hm
  dsimp only [ratingOf] at hm
  split at hm
  · cases hm
  · next h0 =>
    obtain rfl := Option.some.inj hm
    exact ⟨h0, h⟩

namespace ShotBlob

theorem length_record (s : Shot) : (record s).length = recordSize := rfl

theorem shotOf_record {s : Shot} (h : s.Sound) : shotOf (record s) = s := by
  have hrating : (if s.rating.getD 0 ≤ Shot.greatestRating then Shot.ratingOf (s.rating.getD 0)
      else none) = s.rating := by
    cases hr : s.rating with
    | none => rfl
    | some n =>
      obtain ⟨h0, hle⟩ := h n hr
      rw [Option.getD_some, if_pos hle, Shot.ratingOf, if_neg h0]
  have word (place n : Nat) (rest : Bytes) (hn : n < 4294967296)
      (hd : (record s).drop (4 * place) = Packed.word n ++ rest) :
      Packed.wordOf ((record s).drop (4 * place)) = n := by
    rw [hd, Packed.wordOf_word hn]
  have hbyte : (record s).getD 32 0 = s.rating.getD 0 := rfl
  have hfirst : (record s).drop (4 * 0) =
      Packed.word s.timestamp.toNat ++ (record s).drop 4 := by
    rw [Nat.mul_zero, List.drop_zero]
    exact (List.take_append_drop 4 (record s)).symm
  simp only [shotOf, hbyte, hrating]
  rw [word 0 _ _ s.timestamp.toNat_lt hfirst, word 1 _ _ s.dose.toBits_lt_of_single rfl,
    word 2 _ _ s.yield.toBits_lt_of_single rfl, word 3 _ _ s.duration.toNat_lt rfl,
    word 4 _ _ s.preinfusion.toNat_lt rfl, word 5 _ _ s.flow.toBits_lt_of_single rfl,
    word 6 _ _ s.peak.toBits_lt_of_single rfl, word 7 _ _ s.temperature.toBits_lt_of_single rfl]
  simp only [UInt32.ofNat_toNat, Binary.ofBits_toBits]

theorem length_flatMap_record (shots : List Shot) :
    (shots.flatMap record).length = shots.length * recordSize := by
  induction shots with
  | nil => rfl
  | cons s shots ih =>
    rw [List.flatMap_cons, List.length_append, ih, length_record, List.length_cons, Nat.succ_mul,
      Nat.add_comm]

theorem records_flatMap_record {shots : List Shot} (h : ∀ s ∈ shots, s.Sound) :
    records shots.length (shots.flatMap record) = shots := by
  induction shots with
  | nil => rfl
  | cons s shots ih =>
    rw [List.length_cons, records, List.flatMap_cons, List.take_left' (length_record s),
      List.drop_left' (length_record s), shotOf_record (h s (List.mem_cons_self ..)),
      ih fun t ht => h t (List.mem_cons_of_mem _ ht)]

theorem decode_encode {limit : Nat} {shots : List Shot} (hl : shots.length ≤ limit)
    (hlimit : limit < 256) (h : ∀ s ∈ shots, s.Sound) :
    decode limit (encode shots) = .ok shots := by
  have hcount : (UInt8.ofNat shots.length).toNat = shots.length := by
    rw [UInt8.toNat_ofNat']
    omega
  have hbody : (encode shots).drop headerSize = shots.flatMap record := rfl
  have hlength : ¬(encode shots).length < headerSize := by
    simp [encode, magic, headerSize]
  have hdeclared : (encode shots).getD 5 0 = UInt8.ofNat shots.length := rfl
  have hversion : (encode shots).getD 4 0 = version := rfl
  rw [decode, if_neg hlength, if_neg (fun hm => hm rfl)]
  dsimp only
  rw [hversion, if_neg (fun hv => hv rfl), hdeclared, hcount, if_neg (by omega), hbody,
    if_neg (by rw [length_flatMap_record]; omega), records_flatMap_record h]

end ShotBlob

namespace ShotHistory

def Sound (h : ShotHistory) : Prop := ∀ s ∈ h.toList, s.Sound

theorem length_toList (h : ShotHistory) : h.toList.length = h.size := h.ring.length_toList

theorem toList_add (h : ShotHistory) (s : Shot) :
    (h.add s).toList = (s :: h.toList).take capacity := h.ring.toList_push s

theorem toList_foldl_add (h : ShotHistory) (shots : List Shot) :
    (shots.foldl add h).toList = (shots.reverse ++ h.toList).take capacity := by
  induction shots generalizing h with
  | nil =>
    have hs : h.toList.length ≤ capacity := by
      rw [length_toList]
      exact h.ring.size_le
    rw [List.foldl_nil, List.reverse_nil, List.nil_append, List.take_of_length_le hs]
  | cons s shots ih =>
    rw [List.foldl_cons, ih, toList_add, List.reverse_cons, List.append_assoc,
      List.singleton_append, List.take_append, List.take_append, List.take_take,
      Nat.min_eq_left (Nat.sub_le ..)]

theorem toList_ofShots {shots : List Shot} (h : shots.length ≤ capacity) :
    (ofShots shots).toList = shots.reverse := by
  rw [ofShots, toList_foldl_add, show empty.toList = [] from Ring.toList_empty _, List.append_nil,
    List.take_of_length_le (by rwa [List.length_reverse])]

theorem size_add_pos (h : ShotHistory) (s : Shot) : 0 < (h.add s).size :=
  Nat.lt_min.mpr ⟨Nat.succ_pos _, by decide⟩

theorem size_rate {h h' : ShotHistory} {index : Nat} {rating : UInt8}
    (hr : h.rate index rating = .ok h') : h'.size = h.size ∧ index < h.size := by
  unfold ShotHistory.rate at hr
  split at hr
  · cases hr
  · split at hr
    · cases hr
    · next hi =>
      obtain rfl := Except.ok.inj hr
      refine ⟨?_, Nat.not_le.mp hi⟩
      show (h.ring.modify index _).size = h.ring.size
      unfold Ring.modify
      split <;> rfl

theorem sound_empty : empty.Sound := by
  intro s hs
  rw [show empty.toList = [] from Ring.toList_empty _] at hs
  cases hs

theorem sound_clear (h : ShotHistory) : h.clear.Sound := by
  intro s hs
  cases hs

theorem Sound.add {h : ShotHistory} (hh : h.Sound) {s : Shot} (hs : s.Sound) : (h.add s).Sound := by
  intro t ht
  rw [toList_add] at ht
  rcases List.mem_cons.mp (List.mem_of_mem_take ht) with rfl | ht
  · exact hs
  · exact hh t ht

theorem Sound.rate {h h' : ShotHistory} {index : Nat} {rating : UInt8} (hh : h.Sound)
    (hr : h.rate index rating = .ok h') : h'.Sound := by
  unfold ShotHistory.rate at hr
  split at hr
  · cases hr
  · next hle =>
    split at hr
    · cases hr
    · obtain rfl := Except.ok.inj hr
      intro s hs
      rw [toList, Ring.toList_modify] at hs
      obtain ⟨i, hi, rfl⟩ := List.mem_iff_getElem.mp hs
      rw [List.getElem_modify]
      split
      · exact Shot.sound_ratingOf (UInt8.not_lt.mp hle) _
      · exact hh _ (List.getElem_mem _)

theorem sound_ofBytes (bytes : Bytes) : ((ofBytes bytes).toOption.getD empty).Sound := by
  have hrecord (data : Bytes) : (ShotBlob.shotOf data).Sound := by
    unfold ShotBlob.shotOf
    dsimp only
    split
    · next hle => exact Shot.sound_ratingOf hle ⟨_, _, _, _, _, _, _, _, none⟩
    · intro n hn
      cases hn
  have hrecords (count : Nat) (data : Bytes) : ∀ s ∈ ShotBlob.records count data, s.Sound := by
    induction count generalizing data with
    | zero =>
      intro s hs
      cases hs
    | succ count ih =>
      intro s hs
      rcases List.mem_cons.mp hs with rfl | hs
      · exact hrecord _
      · exact ih _ s hs
  have hshots (shots : List Shot) (h : ShotHistory) (hh : h.Sound) (hs : ∀ s ∈ shots, s.Sound) :
      (shots.foldl add h).Sound := by
    induction shots generalizing h with
    | nil => exact hh
    | cons s shots ih =>
      exact ih _ (hh.add (hs s (List.mem_cons_self ..))) fun t ht => hs t (List.mem_cons_of_mem _ ht)
  cases hd : ShotBlob.decode capacity bytes with
  | error e =>
    rw [ofBytes, hd]
    exact sound_empty
  | ok shots =>
    rw [ofBytes, hd]
    apply hshots _ _ sound_empty
    unfold ShotBlob.decode at hd
    dsimp only at hd
    repeat (split at hd; · cases hd)
    obtain rfl := Except.ok.inj hd
    exact hrecords _ _

theorem sound_load (m : Medium) : (load m).Sound := by
  unfold load
  split
  · exact sound_ofBytes _
  · exact sound_empty

theorem ofBytes_toBytes {h : ShotHistory} (hh : h.Sound) :
    ∃ h', ofBytes h.toBytes = .ok h' ∧ h'.toList = h.toList := by
  have hlen : h.toList.reverse.length ≤ capacity := by
    rw [List.length_reverse, length_toList]
    exact h.ring.size_le
  have hs : ∀ s ∈ h.toList.reverse, s.Sound := fun s hs => hh s (List.mem_reverse.mp hs)
  refine ⟨ofShots h.toList.reverse, ?_, ?_⟩
  · rw [ofBytes, toBytes, ShotBlob.decode_encode hlen (by decide) hs]
    rfl
  · rw [toList_ofShots hlen, List.reverse_reverse]

theorem length_toBytes (h : ShotHistory) : h.toBytes.length = 6 + 36 * h.size := by
  have hb := ShotBlob.length_flatMap_record h.toList.reverse
  rw [List.length_reverse, length_toList] at hb
  simp only [toBytes, ShotBlob.encode, ShotBlob.magic, List.length_append, List.length_cons,
    List.length_nil, hb, ShotBlob.recordSize]
  omega

theorem length_toBytes_le (h : ShotHistory) : h.toBytes.length ≤ Store.capacity := by
  have hs : h.size ≤ 50 := h.ring.size_le
  rw [length_toBytes, Store.capacity]
  omega

theorem load_congr {m m' : Medium} (h : m'.read address = m.read address) : load m' = load m := by
  rw [load, h]
  rfl

theorem load_of_read {m : Medium} {h : ShotHistory} (hh : h.Sound)
    (hr : m.read address = .ok h.toBytes) : (load m).toList = h.toList := by
  obtain ⟨h', ho, hl⟩ := ofBytes_toBytes hh
  rw [load, hr]
  dsimp only
  rw [ho]
  exact hl

theorem load_of_error {m : Medium} {e : StorageError} (hr : m.read address = .error e) :
    (load m).toList = [] := by
  rw [load, hr]
  exact Ring.toList_empty _

theorem toList_eq_nil {h : ShotHistory} (hs : h.size = 0) : h.toList = [] := by
  rw [← List.length_eq_zero_iff, length_toList, hs]

theorem ready_save {m : Medium} (h : ShotHistory) (hm : m.Ready) : (h.save m).2.Ready := by
  unfold save
  split
  · exact hm.delete _
  · exact hm.write _ _

theorem serves_save {m : Medium} (h : ShotHistory) (hm : m.Serves) : (h.save m).2.Serves := by
  unfold save
  split
  · exact hm.delete _
  · exact hm.write _ _

theorem load_of_save {m : Medium} {h : ShotHistory} (hm : m.Serves) (hh : h.Sound)
    (ho : (h.save m).1.isOk = true) : (load (h.save m).2).toList = h.toList := by
  unfold save at ho ⊢
  split at ho
  · next hs => rw [if_pos hs, load_of_error (hm.read_of_delete ho), toList_eq_nil hs]
  · next hs =>
    rw [if_neg hs]
    exact load_of_read hh (hm.read_of_write h.length_toBytes_le ho)

theorem load_save {m : Medium} {h : ShotHistory} (hm : m.Ready) (hh : h.Sound) :
    (load (h.save m).2).toList = h.toList := by
  apply load_of_save hm.serves hh
  unfold save
  split
  · exact hm.serves.isOk_delete (hm.refuses_eq _)
  · exact hm.isOk_write h.length_toBytes_le

theorem read_save_of_ne {m : Medium} (hm : m.Ready) (h : ShotHistory) {a : Address}
    (ha : a.path ≠ address.path) : (h.save m).2.read a = m.read a := by
  unfold save
  split
  · exact hm.read_delete_of_ne ha
  · exact hm.read_write_of_ne ha _

end ShotHistory

end Espresso
