import Espresso.Proofs.Storage
import Espresso.Storage.Request

namespace Espresso

def Access.Fits : Access → Prop
  | .write _ data => data.length ≤ Store.capacity
  | _ => True

namespace Store

variable {s t : Store} {a : Address} {data : Bytes} {space : String}

def Fits (s : Store) : Prop :=
  ∀ path data, s.lookup path = some data → data.length ≤ capacity

def served (s : Store) (rs : List Request) : Store := rs.foldl (fun s r => (s.serve r).2) s

theorem fits_empty : empty.Fits := nofun

theorem length_le_of_write (h : s.write a data = .ok t) : data.length ≤ capacity := by
  unfold write at h
  split at h
  · split at h
    · cases h
    · next hlong => exact Nat.le_of_not_lt hlong
  · cases h

theorem Fits.write (h : s.Fits) (ht : s.write a data = .ok t) : t.Fits := by
  intro path kept hl
  rw [lookup_write ht] at hl
  split at hl
  · obtain rfl := Option.some.inj hl
    exact length_le_of_write ht
  · exact h path kept hl

theorem Fits.delete (h : s.Fits) (ht : s.delete a = .ok t) : t.Fits := by
  intro path kept hl
  rw [lookup_delete ht] at hl
  split at hl
  · cases hl
  · exact h path kept hl

theorem Fits.erase (h : s.Fits) (ht : s.erase space = .ok t) : t.Fits := by
  intro path kept hl
  rw [lookup_erase ht] at hl
  split at hl
  · cases hl
  · exact h path kept hl

theorem Fits.changed {change : Except StorageError Store} (h : s.Fits)
    (hc : ∀ t, change = .ok t → t.Fits) : (s.changed change).2.Fits := by
  cases change with
  | error e => exact h
  | ok t => exact hc t rfl

theorem Fits.serve (h : s.Fits) (r : Request) : (s.serve r).2.Fits := by
  cases r with
  | read a buffer => exact h
  | write a data => exact h.changed fun _ => h.write
  | delete a => exact h.changed fun _ => h.delete
  | contains a => exact h
  | erase space => exact h.changed fun _ => h.erase

theorem Fits.served (h : s.Fits) (rs : List Request) : (s.served rs).Fits :=
  List.foldlRecOn rs _ h fun _ ht r _ => ht.serve r

end Store

namespace Medium

variable {m m' m'' : Medium} {change : Store → Except StorageError Store}

structure WithinCapacity (m m' : Medium) : Prop where
  refuses : m'.refuses = m.refuses
  available : m'.store.available = m.store.available
  fits : m.store.Fits → m'.store.Fits
  tried : ∀ t ∈ m'.attempts, t ∈ m.attempts ∨
    t.access.Fits ∧ (m.store.available = true → t.failure = m.refuses t.access)

namespace WithinCapacity

theorem refl (m : Medium) : m.WithinCapacity m := ⟨rfl, rfl, id, fun _ => .inl⟩

theorem of_eq (h : m' = m) : m.WithinCapacity m' := h ▸ refl m

theorem trans (h : m.WithinCapacity m') (h' : m'.WithinCapacity m'') : m.WithinCapacity m'' where
  refuses := h'.refuses.trans h.refuses
  available := h'.available.trans h.available
  fits hm := h'.fits (h.fits hm)
  tried t ht := by
    rcases h'.tried t ht with ht | ht
    · exact h.tried t ht
    · rw [h.refuses, h.available] at ht
      exact .inr ht

end WithinCapacity

theorem withinCapacity_attempt (access : Access) (ha : access.Fits)
    (hok : m.store.available = true → ∃ s, change m.store = .ok s)
    (hc : ∀ s, change m.store = .ok s →
      s.available = m.store.available ∧ (m.store.Fits → s.Fits)) :
    m.WithinCapacity (m.attempt access change).2 := by
  have htried {failure : Option StorageError}
      (hfailure : m.store.available = true → failure = m.refuses access) :
      ∀ t ∈ m.attempts ++ [⟨access, failure⟩], t ∈ m.attempts ∨
        t.access.Fits ∧ (m.store.available = true → t.failure = m.refuses t.access) := by
    intro t ht
    rcases List.mem_append.mp ht with ht | ht
    · exact .inl ht
    · obtain rfl := List.mem_singleton.mp ht
      exact .inr ⟨ha, hfailure⟩
  rcases attempt_cases m access change with ⟨store, hr, hs, h⟩ | ⟨e, he, h⟩
  · obtain ⟨havailable, hfits⟩ := hc store hs
    rw [h]
    exact ⟨rfl, havailable, hfits, htried fun _ => hr.symm⟩
  · rw [h]
    refine ⟨rfl, rfl, id, htried fun havailable => ?_⟩
    obtain ⟨s, hs⟩ := hok havailable
    rcases he with he | he
    · exact he.symm
    · cases hs.symm.trans he

theorem withinCapacity_write (m : Medium) (a : Address) {data : Bytes}
    (hd : data.length ≤ Store.capacity) : m.WithinCapacity (m.write a data).2 :=
  withinCapacity_attempt (.write a data) hd (fun h => Store.exists_write h hd)
    fun _ hs => ⟨(Store.write_eq_ok hs).1, fun h => h.write hs⟩

theorem withinCapacity_delete (m : Medium) (a : Address) : m.WithinCapacity (m.delete a).2 :=
  withinCapacity_attempt (.delete a) trivial Store.exists_delete
    fun _ hs => ⟨(Store.delete_eq_ok hs).1, fun h => h.delete hs⟩

theorem withinCapacity_erase (m : Medium) (space : String) : m.WithinCapacity (m.erase space).2 :=
  withinCapacity_attempt (.erase space) trivial (Store.exists_erase · space)
    fun _ hs => ⟨(Store.erase_eq_ok hs).1, fun h => h.erase hs⟩

theorem read_of_fits {a : Address} {data : Bytes} (hm : m.store.available = true)
    (hr : m.refuses (.read a) = none) (hf : m.store.Fits)
    (hl : m.store.lookup a.path = some data) : m.read a = .ok data := by
  rw [read, hr]
  dsimp only
  rw [Store.read, if_pos hm, hl]
  exact if_neg (Nat.not_lt.mpr (hf _ _ hl))

end Medium

end Espresso
