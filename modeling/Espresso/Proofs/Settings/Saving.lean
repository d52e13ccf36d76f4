import Espresso.Proofs.Settings.Persistence

namespace Espresso

structure Store.Alike (s t : Store) : Prop where
  available : s.available = t.available
  lookup : ∀ path, s.lookup path = t.lookup path

theorem Store.Alike.refl (s : Store) : s.Alike s := ⟨rfl, fun _ => rfl⟩

theorem Store.Alike.symm {s t : Store} (h : s.Alike t) : t.Alike s :=
  ⟨h.available.symm, fun path => (h.lookup path).symm⟩

theorem Store.Alike.trans {s t u : Store} (h : s.Alike t) (h' : t.Alike u) : s.Alike u :=
  ⟨h.available.trans h'.available, fun path => (h.lookup path).trans (h'.lookup path)⟩

namespace Medium

variable {m m' : Medium} {a b : Address} {data data' : Bytes}

def takes (m : Medium) (a : Address) (data : Bytes) : Bool :=
  (m.refuses (.write a data)).isNone && m.store.available &&
    decide (data.length ≤ Store.capacity)

theorem lookup_write (m : Medium) (a : Address) (data : Bytes) (path : List Char) :
    (m.write a data).2.store.lookup path =
      if path = a.path ∧ m.takes a data then some data else m.store.lookup path := by
  rw [write]
  rcases attempt_cases m (.write a data) (·.write a data) with ⟨store, hr, hs, h⟩ | ⟨e, he, h⟩ <;>
    rw [h]
  · have htakes : m.takes a data = true := by
      simp only [Store.write] at hs
      split at hs
      · split at hs
        · cases hs
        · simp_all [takes]
      · cases hs
    obtain ⟨-, hsame, hother⟩ := Store.write_eq_ok hs
    by_cases hp : path = a.path
    · simp [hp, htakes, hsame]
    · simp [hp, hother path hp]
  · have htakes : m.takes a data = false := by
      rcases he with he | he
      · simp [takes, he]
      · simp only [Store.write] at he
        split at he
        · split at he
          · simp_all [takes]
          · cases he
        · simp_all [takes]
    simp [htakes]

theorem takes_write (m : Medium) (a b : Address) (data data' : Bytes) :
    (m.write a data).2.takes b data' = m.takes b data' := by
  obtain ⟨hr, ha⟩ := m.write_keeps a data
  rw [takes, takes, hr, ha]

theorem accesses_write (m : Medium) (a : Address) (data : Bytes) :
    (m.write a data).2.attempts.map Attempt.access =
      m.attempts.map Attempt.access ++ [.write a data] := by
  obtain ⟨failure, h⟩ := m.attempts_attempt (.write a data) (·.write a data)
  rw [write, h, List.map_append]
  rfl

theorem alike_write (hr : m.refuses = m'.refuses) (h : m.store.Alike m'.store) (a : Address)
    (data : Bytes) : (m.write a data).2.store.Alike (m'.write a data).2.store := by
  constructor
  · rw [(m.write_keeps a data).2, (m'.write_keeps a data).2, h.available]
  · intro path
    have htakes : m.takes a data = m'.takes a data := by rw [takes, takes, hr, h.available]
    rw [lookup_write, lookup_write, htakes, h.lookup]

theorem alike_write_write (m : Medium) (h : a.path ≠ b.path) (data data' : Bytes) :
    ((m.write a data).2.write b data').2.store.Alike ((m.write b data').2.write a data).2.store := by
  constructor
  · simp only [(write_keeps _ _ _).2]
  · intro path
    simp only [lookup_write, takes_write]
    by_cases ha : path = a.path
    · subst ha
      simp [h]
    · simp [ha]

end Medium

namespace Settings

variable {m m' : Medium} {sections sections' : List Section}

theorem refuses_saveSections (s : Settings) (sections : List Section) (m : Medium) :
    (s.saveSections sections m).2.refuses = m.refuses := by
  induction sections generalizing m with
  | nil => rfl
  | cons n sections ih => exact (ih _).trans (m.write_keeps _ _).1

theorem alike_saveSections (s : Settings) (sections : List Section) (hr : m.refuses = m'.refuses)
    (h : m.store.Alike m'.store) :
    (s.saveSections sections m).2.store.Alike (s.saveSections sections m').2.store := by
  induction sections generalizing m m' with
  | nil => exact h
  | cons n sections ih =>
    have hrefuses := (s.refuses_saveSections [n] m).trans
      (hr.trans (s.refuses_saveSections [n] m').symm)
    exact ih hrefuses (Medium.alike_write hr h _ _)

theorem alike_saveSections_of_perm (s : Settings) (h : sections.Perm sections') (m : Medium) :
    (s.saveSections sections m).2.store.Alike (s.saveSections sections' m).2.store := by
  induction h generalizing m with
  | nil => exact .refl _
  | cons n _ ih => exact ih _
  | swap n k sections =>
    by_cases hnk : k = n
    · subst hnk
      exact .refl _
    · have hrefuses := (s.refuses_saveSections [k, n] m).trans (s.refuses_saveSections [n, k] m).symm
      exact s.alike_saveSections sections hrefuses (m.alike_write_write (path_address_ne hnk) _ _)
  | trans _ _ ih ih' => exact (ih m).trans (ih' m)

theorem accesses_saveSections (s : Settings) (sections : List Section) (m : Medium) :
    (s.saveSections sections m).2.attempts.map Attempt.access = m.attempts.map Attempt.access ++
      sections.map fun n => .write (address n) (Text.toBytes (s.stored n)) := by
  induction sections generalizing m with
  | nil => simp [saveSections]
  | cons n sections ih =>
    have hrest := ih (s.saveSection n m).2
    rw [show (s.saveSection n m).2.attempts.map Attempt.access = _ from m.accesses_write ..,
      List.append_assoc] at hrest
    exact hrest

end Settings

end Espresso
