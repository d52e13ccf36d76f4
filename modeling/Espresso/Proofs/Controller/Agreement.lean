import Espresso.Proofs.Controller.Upkeep

namespace Espresso

/-- A history without a mark is the one that is stored, unless it is empty and a stored one was to be
deleted in vain. -/
structure Upkeep.Agrees (k : Upkeep) (lapsed : Prop) : Prop where
  serves : k.medium.Serves
  sound : k.history.Sound
  stored : k.dirty = false → (ShotHistory.load k.medium).toList = k.history.toList ∨
    k.history.toList = [] ∧ lapsed

namespace Upkeep.Agrees

variable {k k' : Upkeep} {lapsed : Prop} {r : Readings} {q : Call}

theorem spares (h : k.Agrees lapsed) (hs : k.Spares k') : k'.Agrees lapsed where
  serves := hs.medium.serves h.serves
  sound := by
    rw [hs.history]
    exact h.sound
  stored := by
    rw [hs.dirty, hs.history, ShotHistory.load_congr (hs.medium.read_eq h.serves)]
    exact h.stored

theorem service (h : k.Agrees lapsed) (r : Readings) : (k.service r).Agrees lapsed := by
  by_cases hd : k.isDue r = true
  · have hdirty : k.dirty = true := (Bool.and_eq_true_iff.mp hd).1
    by_cases hr : k.hasRoom r = true
    · have hserves := ShotHistory.serves_save k.history h.serves
      rw [service_of_room hd hr]
      split
      · next ho => exact ⟨hserves, h.sound, fun _ => .inl (ShotHistory.load_of_save h.serves h.sound ho)⟩
      · exact ⟨hserves, h.sound, fun hn => nomatch hdirty.symm.trans hn⟩
    · rw [service_of_no_room hd (Bool.eq_false_iff.mpr hr)]
      exact ⟨h.serves, h.sound, h.stored⟩
  · rwa [service_of_not_due (Bool.eq_false_iff.mpr hd)]

theorem clear (h : k.Agrees lapsed)
    (hl : (k.medium.refuses (.delete ShotHistory.address)).isSome = true → lapsed) :
    Agrees { k with
      medium := (k.history.clear.save k.medium).2
      history := k.history.clear
      dirty := false } lapsed where
  serves := ShotHistory.serves_save _ h.serves
  sound := ShotHistory.sound_clear _
  stored _ := by
    cases hr : k.medium.refuses (.delete ShotHistory.address) with
    | none =>
      left
      exact ShotHistory.load_of_save h.serves (ShotHistory.sound_clear _) (h.serves.isOk_delete hr)
    | some e => exact .inr ⟨rfl, hl (by rw [hr]; rfl)⟩

theorem turn (h : k.Agrees lapsed) (ht : k.Turn r q k')
    (hl : q.operation? = some .clearHistory →
      (k.medium.refuses (.delete ShotHistory.address)).isSome = true → lapsed) :
    k'.Agrees lapsed := by
  cases ht with
  | spared _ _ hs => exact h.spares hs
  | completed shot hc hs =>
    refine ⟨h.serves, h.sound.add ?_, nofun⟩
    intro n hn
    cases hs.symm.trans hn
  | rated hq hr => exact ⟨h.serves, h.sound.rate hr, nofun⟩
  | cleared hq => exact h.clear (hl hq)
  | reset hq =>
    have hread := Medium.read_eraseSpaces h.serves (a := ShotHistory.address) (by decide)
    exact ⟨(Medium.serves_eraseSpaces h.serves _).1, ShotHistory.sound_clear _,
      fun _ => .inl (ShotHistory.load_of_error hread)⟩
  | booted hq => exact ⟨h.serves, ShotHistory.sound_load _, fun _ => .inl rfl⟩
  | ticked hq hs => exact (h.spares hs).service r

end Upkeep.Agrees

namespace Controller

theorem agrees_facing {c : Controller} {lapsed : Prop} (h : c.upkeep.Agrees lapsed) {s : Step}
    (hr : ∀ a, s.refuses (.read a) = none) (he : ∀ space, s.refuses (.erase space) = none) :
    (c.facing s).upkeep.Agrees lapsed := by
  have hserves : (c.facing s).medium.Serves := ⟨h.serves.available, hr, he⟩
  have hread := h.serves.read_congr (a := ShotHistory.address) hserves rfl
  refine ⟨hserves, h.sound, ?_⟩
  intro hd
  show (ShotHistory.load (c.facing s).medium).toList = _ ∨ _
  rw [ShotHistory.load_congr hread]
  exact h.stored hd

theorem agrees_run {c : Controller} (hm : c.medium.Serves) (r : Readings) {steps : List Step}
    (hs : ∀ s ∈ steps,
      (∀ a, s.refuses (.read a) = none) ∧ ∀ space, s.refuses (.erase space) = none) :
    ((c.boot r).run steps).upkeep.Agrees (∃ s ∈ steps, s.call.operation? = some .clearHistory ∧
      (s.refuses (.delete ShotHistory.address)).isSome = true) := by
  apply run_induction (P := fun d => d.upkeep.Agrees _)
  · rw [upkeep_boot]
    exact ⟨hm, ShotHistory.sound_load _, fun _ => .inl rfl⟩
  · intro d s hmem hd
    obtain ⟨hr, he⟩ := hs s hmem
    exact (agrees_facing hd hr he).turn (turn_after d s) fun hq hl => ⟨s, hmem, hq, hl⟩

/-- Whatever writes and deletes are refused, a history without a mark is the one that a fresh start
would load. The one exception is a history that was forgotten while its blob could not be deleted. -/
theorem clean_history_is_stored {c : Controller} (hm : c.medium.Serves) (r : Readings)
    {steps : List Step} (hs : ∀ s ∈ steps,
      (∀ a, s.refuses (.read a) = none) ∧ ∀ space, s.refuses (.erase space) = none) :
    let d := (c.boot r).run steps
    d.historyDirty = false →
      (ShotHistory.load d.medium).toList = d.history.toList ∨
      d.history.toList = [] ∧ ∃ s ∈ steps, s.call.operation? = some .clearHistory ∧
        (s.refuses (.delete ShotHistory.address)).isSome = true :=
  (agrees_run hm r hs).stored

theorem clean_history_is_stored_later :
    let refuses : Access → Option StorageError :=
      Fault.refusal [⟨.write, "history/shots", .io⟩, ⟨.delete, "*", .io⟩]
    let d := ((blank default (.reliable .empty)).boot ⟨0, none, 0⟩).run [
      ⟨⟨0, none, 0⟩, fun _ => none, .command .startShot⟩,
      ⟨⟨25000, none, 0⟩, fun _ => none, .command .endShot⟩,
      ⟨⟨31000, none, 100000⟩, refuses, .tick⟩,
      ⟨⟨33000, none, 100000⟩, fun _ => none, .tick⟩]
    d.history.size = 1 ∧ (ShotHistory.load d.medium).toList = d.history.toList := by
  refine ⟨by decide +kernel, Or.resolve_right (@clean_history_is_stored
    (blank default (.reliable .empty)) ⟨rfl, fun _ => rfl, fun _ => rfl⟩ ⟨0, none, 0⟩ [
      ⟨⟨0, none, 0⟩, fun _ => none, .command .startShot⟩,
      ⟨⟨25000, none, 0⟩, fun _ => none, .command .endShot⟩,
      ⟨⟨31000, none, 100000⟩,
        Fault.refusal [⟨.write, "history/shots", .io⟩, ⟨.delete, "*", .io⟩], .tick⟩,
      ⟨⟨33000, none, 100000⟩, fun _ => none, .tick⟩] ?_ (by decide +kernel)) ?_⟩
  · simp only [List.forall_mem_cons, List.not_mem_nil, false_imp_iff, implies_true, and_true,
      true_and]
    exact ⟨fun a => rfl, fun space => rfl⟩
  · simp [Call.operation?]

/-- A history that is forgotten while its blob cannot be deleted: it bears no mark, and a fresh start
would bring the shot back. -/
theorem clean_history_is_stale :
    let steps : List Step := [
      ⟨⟨0, none, 0⟩, fun _ => none, .command .startShot⟩,
      ⟨⟨25000, none, 0⟩, fun _ => none, .command .endShot⟩,
      ⟨⟨31000, none, 100000⟩, fun _ => none, .tick⟩,
      ⟨⟨31000, none, 100000⟩, Fault.refusal [⟨.delete, "history", .io⟩], .command .clearHistory⟩]
    let d := ((blank default (.reliable .empty)).boot ⟨0, none, 0⟩).run steps
    (∀ s ∈ steps, (∀ a, s.refuses (.read a) = none) ∧
      (∀ space, s.refuses (.erase space) = none) ∧ ∀ a data, s.refuses (.write a data) = none) ∧
    d.historyDirty = false ∧ (ShotHistory.load d.medium).toList ≠ d.history.toList := by
  refine ⟨?_, by decide +kernel⟩
  simp only [List.forall_mem_cons, List.not_mem_nil, false_imp_iff, implies_true, and_true, true_and]
  exact ⟨fun a => rfl, fun space => rfl, fun a data => rfl⟩

end Controller

end Espresso
