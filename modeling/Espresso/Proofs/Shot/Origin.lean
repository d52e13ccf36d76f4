import Espresso.Proofs.Shot

namespace Espresso

def Shot.unrated (s : Shot) : Shot := { s with rating := none }

theorem Shot.unrated_of_none {s : Shot} (h : s.rating = none) : s.unrated = s := by
  rw [unrated, ← h]

namespace ShotHistory

def Among (h : ShotHistory) (ended : List Shot) : Prop :=
  (h.toList.map Shot.unrated).Sublist ended.reverse

def StoredAmong (m : Medium) (ended : List Shot) : Prop :=
  ∀ bytes, m.store.lookup address.path = some bytes →
    ∃ h, ofBytes bytes = .ok h ∧ h.Among ended

variable {h h' : ShotHistory} {m m' : Medium} {ended : List Shot} {shot : Shot}

theorem Among.mono (ha : h.Among ended) (more : List Shot) : h.Among (ended ++ more) := by
  rw [Among, List.reverse_append]
  exact ha.trans (List.sublist_append_right ..)

theorem Among.of_toList_eq (ha : h.Among ended) (hl : h'.toList = h.toList) : h'.Among ended := by
  rwa [Among, hl]

theorem among_of_toList_eq_nil (hl : h.toList = []) : h.Among ended := by
  simp [Among, hl]

theorem Among.size_eq_zero (ha : h.Among []) : h.size = 0 := by
  rw [← length_toList, ← List.length_map, List.length_eq_zero_iff]
  exact List.sublist_nil.mp ha

theorem Among.add (ha : h.Among ended) (hs : shot.rating = none) :
    (h.add shot).Among (ended ++ [shot]) := by
  rw [Among, toList_add, List.map_take, List.map_cons, Shot.unrated_of_none hs,
    List.reverse_append, List.reverse_singleton, List.singleton_append]
  exact (List.take_sublist ..).trans (ha.cons_cons shot)

theorem Among.rate {index : Nat} {rating : UInt8} (ha : h.Among ended)
    (hr : h.rate index rating = .ok h') : h'.Among ended := by
  unfold ShotHistory.rate at hr
  split at hr
  · cases hr
  · split at hr
    · cases hr
    · obtain rfl := Except.ok.inj hr
      have hsame : (h.toList.modify index fun s =>
          { s with rating := Shot.ratingOf rating }).map Shot.unrated =
            h.toList.map Shot.unrated := by
        apply List.ext_getElem?
        intro i
        rw [List.getElem?_map, List.getElem?_map, List.getElem?_modify]
        cases h.toList[i]? with
        | none => rfl
        | some s => by_cases hi : index = i <;> simp [hi, Shot.unrated]
      rw [Among, toList, Ring.toList_modify]
      exact hsame ▸ ha

theorem StoredAmong.mono (hm : StoredAmong m ended) (more : List Shot) :
    StoredAmong m (ended ++ more) := by
  intro bytes hb
  obtain ⟨h, hbytes, ha⟩ := hm bytes hb
  exact ⟨h, hbytes, ha.mono more⟩

theorem StoredAmong.of_lookup (hm : StoredAmong m ended)
    (hl : m'.store.lookup address.path = m.store.lookup address.path ∨
      m'.store.lookup address.path = none) : StoredAmong m' ended := by
  intro bytes hb
  rcases hl with hl | hl
  · exact hm bytes (hl ▸ hb)
  · cases hl.symm.trans hb

theorem StoredAmong.save (hm : StoredAmong m ended) (hs : h.Sound) (ha : h.Among ended) :
    StoredAmong (h.save m).2 ended := by
  unfold ShotHistory.save
  split
  · exact hm.of_lookup (m.lookup_delete address)
  · rw [Medium.write]
    rcases Medium.attempt_cases m (.write address h.toBytes) (·.write address h.toBytes) with
      ⟨store, -, hw, h'⟩ | ⟨e, -, h'⟩ <;> rw [h']
    · rintro bytes hb
      obtain rfl := Option.some.inj ((Store.write_eq_ok hw).2.1.symm.trans hb)
      obtain ⟨h', hread, hlist⟩ := ofBytes_toBytes hs
      exact ⟨h', hread, ha.of_toList_eq hlist⟩
    · exact hm

theorem StoredAmong.load (hm : StoredAmong m ended) : (load m).Among ended := by
  cases hr : m.read address with
  | error e => exact among_of_toList_eq_nil (load_of_error hr)
  | ok bytes =>
    obtain ⟨h, hbytes, ha⟩ := hm bytes (Medium.lookup_of_read hr)
    apply ha.of_toList_eq
    rw [ShotHistory.load, hr]
    simp [hbytes]
    rfl

end ShotHistory

end Espresso
