import Espresso.Controller.Configure
import Espresso.Proofs.Storage

namespace Espresso

theorem path_ne_address {a : Address} (n : Section)
    (ha : a ∈ [Statistics.address, ShotHistory.address, ScheduleTable.address]) :
    a.path ≠ (Settings.address n).path := by
  simp only [List.mem_cons, List.not_mem_nil, or_false] at ha
  rcases ha with rfl | rfl | rfl <;> cases n <;> decide

namespace Medium

variable {m : Medium}

theorem elsewhere_saveSections {a : Address} (s : Settings) (sections : List Section) (m : Medium)
    (ha : ∀ n, (Settings.address n).path ≠ a.path) :
    m.Elsewhere a (s.saveSections sections m).2 := by
  induction sections generalizing m with
  | nil => exact .refl ..
  | cons n sections ih => exact (elsewhere_write (ha n) m _).trans (ih _)

theorem serves_eraseSpaces (hm : m.Serves) (spaces : List String) :
    (Controller.eraseSpaces spaces m).2.Serves ∧
      ∀ a : Address, a.space ∈ spaces ∨ m.store.lookup a.path = none →
        (Controller.eraseSpaces spaces m).2.store.lookup a.path = none := by
  induction spaces generalizing m with
  | nil => exact ⟨hm, fun a ha => ha.resolve_left List.not_mem_nil⟩
  | cons space spaces ih =>
    obtain ⟨hserves, hspace, hnone⟩ := hm.erase space
    obtain ⟨hrest, hlookup⟩ := ih hserves
    refine ⟨hrest, ?_⟩
    rintro a (ha | ha)
    · apply hlookup
      rcases List.mem_cons.mp ha with rfl | ha
      · exact .inr (hspace a rfl)
      · exact .inl ha
    · exact hlookup a (.inr (hnone _ ha))

theorem refuses_eraseSpaces (m : Medium) (spaces : List String) :
    (Controller.eraseSpaces spaces m).2.refuses = m.refuses := by
  induction spaces generalizing m with
  | nil => rfl
  | cons space spaces ih => exact (ih _).trans (erase_keeps m space).1

theorem writes_eraseSpaces (m : Medium) (spaces : List String) (a : Address) :
    (Controller.eraseSpaces spaces m).2.writes a = m.writes a := by
  induction spaces generalizing m with
  | nil => rfl
  | cons space spaces ih => exact (ih _).trans (writes_erase m space a)

theorem read_eraseSpaces (hm : m.Serves) {a : Address} (ha : a.space ∈ Controller.spaces) :
    (Controller.eraseSpaces Controller.spaces m).2.read a = .error .notFound := by
  obtain ⟨hserves, hlookup⟩ := serves_eraseSpaces hm Controller.spaces
  rw [hserves.read_eq, hlookup a (.inl ha)]

end Medium

end Espresso
