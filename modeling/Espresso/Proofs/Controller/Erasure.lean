import Espresso.Controller.Snapshot
import Espresso.Proofs.Controller.Completion
import Espresso.Proofs.Controller.Economy
import Espresso.Proofs.Shot.Origin
import Espresso.Proofs.Shot.Refinement

namespace Espresso

inductive Happening where
  | step (s : Step)
  | restart (tuning : Tuning)

def Access.space : Access → String
  | .read a => a.space
  | .write a _ => a.space
  | .delete a => a.space
  | .erase space => space

namespace Medium

variable {m : Medium} {a : Address} {spaces : List String}

theorem lookup_eraseSpaces (m : Medium) (spaces : List String) (path : List Char) :
    (Controller.eraseSpaces spaces m).2.store.lookup path = m.store.lookup path ∨
      (Controller.eraseSpaces spaces m).2.store.lookup path = none := by
  induction spaces generalizing m with
  | nil => exact .inl rfl
  | cons space spaces ih =>
    rcases ih (m.erase space).2 with h | h
    · exact (m.lookup_erase space path).imp h.trans h.trans
    · exact .inr h

theorem lookup_delete_eq_none
    (h : ∀ t ∈ (m.delete a).2.attempts, t.access.touches a → t.failure = none) :
    (m.delete a).2.store.lookup a.path = none := by
  rcases attempt_cases m (.delete a) (·.delete a) with ⟨store, -, hs, hd⟩ | ⟨e, -, hd⟩
  · rw [delete, hd]
    exact (Store.delete_eq_ok hs).2.1
  · have hfailed := h ⟨.delete a, some e⟩ (by simp [delete, hd]) (by simp [Access.touches])
    cases hfailed

theorem attempts_eraseSpaces (m : Medium) (spaces : List String) :
    m.attempts <+: (Controller.eraseSpaces spaces m).2.attempts := by
  induction spaces generalizing m with
  | nil => exact List.prefix_rfl
  | cons space spaces ih =>
    obtain ⟨failure, h⟩ := m.attempts_attempt (.erase space) (·.erase space)
    exact List.IsPrefix.trans ⟨_, h.symm⟩ (ih (m.erase space).2)

theorem lookup_eraseSpaces_eq_none (ha : a.space ∈ spaces)
    (h : ∀ t ∈ (Controller.eraseSpaces spaces m).2.attempts, t.access.touches a → t.failure = none) :
    (Controller.eraseSpaces spaces m).2.store.lookup a.path = none := by
  induction spaces generalizing m with
  | nil => cases ha
  | cons space spaces ih =>
    rcases List.mem_cons.mp ha with rfl | ha
    · have hlater : (Controller.eraseSpaces (a.space :: spaces) m).2.store.lookup a.path =
          (m.erase a.space).2.store.lookup a.path ∨ _ := lookup_eraseSpaces _ spaces a.path
      have htried := (attempts_eraseSpaces (m.erase a.space).2 spaces).subset
      rcases attempt_cases m (.erase a.space) (·.erase a.space) with ⟨store, -, hs, he⟩ | ⟨e, -, he⟩
      · rcases hlater with hlater | hlater
        · rw [hlater, erase, he]
          exact (Store.erase_eq_ok hs).2.1 a rfl
        · exact hlater
      · have hmem : (⟨.erase a.space, some e⟩ : Attempt) ∈ (m.erase a.space).2.attempts := by
          simp [erase, he]
        have hfailed := h _ (htried hmem) (by simp [Access.touches])
        cases hfailed
    · exact ih ha h

end Medium

namespace Upkeep

structure Keeps (k : Upkeep) (ended : List Shot) : Prop where
  sound : k.history.Sound
  shown : k.history.Among ended
  stored : ShotHistory.StoredAmong k.medium ended
  calm : ended = [] → k.dirty = false ∧ k.medium.store.lookup ShotHistory.address.path = none

variable {k k' : Upkeep} {r : Readings} {q : Call} {ended told : List Shot}

theorem Keeps.mono (hk : k.Keeps ended) (more : List Shot) : k.Keeps (ended ++ more) where
  sound := hk.sound
  shown := hk.shown.mono more
  stored := hk.stored.mono more
  calm h := hk.calm (List.append_eq_nil_iff.mp h).1

theorem Keeps.spares (hk : k.Keeps ended) (h : k.Spares k') : k'.Keeps ended where
  sound := by
    rw [h.history]
    exact hk.sound
  shown := by
    rw [h.history]
    exact hk.shown
  stored := hk.stored.of_lookup (.inl h.medium.lookup)
  calm he := by
    rw [h.dirty, h.medium.lookup]
    exact hk.calm he

theorem Keeps.service (hk : k.Keeps ended) (r : Readings) : (k.service r).Keeps ended := by
  cases hd : k.isDue r with
  | false => rwa [service_of_not_due hd]
  | true =>
    have hne : ended ≠ [] := by
      intro he
      rw [isDue, (hk.calm he).1] at hd
      cases hd
    cases hr : k.hasRoom r with
    | false =>
      rw [service_of_no_room hd hr]
      exact ⟨hk.sound, hk.shown, hk.stored, fun he => absurd he hne⟩
    | true =>
      have hstored := hk.stored.save hk.sound hk.shown
      rw [service_of_room hd hr]
      split <;> exact ⟨hk.sound, hk.shown, hstored, fun he => absurd he hne⟩

theorem Keeps.turn (hk : k.Keeps ended) (h : k.Turn r q k')
    (hc : k.completes q → ∃ shot, shot.rating = none ∧ told = [shot] ∧
      k'.history = k.history.add shot) : k'.Keeps (ended ++ told) := by
  cases h with
  | spared hq hn hs => exact (hk.spares hs).mono told
  | completed _ hq =>
    obtain ⟨shot, hs, rfl, hadd⟩ := hc hq
    have hadd : k.history.add _ = k.history.add shot := hadd
    have hsound : shot.Sound := by
      intro n hn
      cases hs.symm.trans hn
    rw [hadd]
    exact ⟨hk.sound.add hsound, hk.shown.add hs, hk.stored.mono _, by simp⟩
  | rated _ hr =>
    apply Keeps.mono
    refine ⟨hk.sound.rate hr, hk.shown.rate hr, hk.stored, ?_⟩
    rintro rfl
    have hlt := (ShotHistory.size_rate hr).2
    rw [hk.shown.size_eq_zero] at hlt
    cases hlt
  | cleared =>
    have hshown : k.history.clear.Among ended := ShotHistory.among_of_toList_eq_nil rfl
    apply Keeps.mono
    refine ⟨k.history.sound_clear, hshown, hk.stored.save k.history.sound_clear hshown, ?_⟩
    intro he
    exact ⟨rfl, (k.medium.lookup_delete _).elim (·.trans (hk.calm he).2) id⟩
  | reset =>
    apply Keeps.mono
    refine ⟨k.history.sound_clear, ShotHistory.among_of_toList_eq_nil rfl,
      hk.stored.of_lookup (k.medium.lookup_eraseSpaces ..), ?_⟩
    intro he
    exact ⟨rfl, (k.medium.lookup_eraseSpaces ..).elim (·.trans (hk.calm he).2) id⟩
  | booted =>
    apply Keeps.mono
    refine ⟨ShotHistory.sound_load _, hk.stored.load, hk.stored, ?_⟩
    intro he
    exact ⟨rfl, (hk.calm he).2⟩
  | ticked _ hs => exact ((hk.spares hs).service r).mono told

end Upkeep

namespace Controller

def endure (c : Controller) : Happening → Controller
  | .step s => c.after s
  | .restart tuning => blank tuning c.medium

def live (c : Controller) (later : List Happening) : Controller := later.foldl endure c

def ended : Controller → List Happening → List Shot
  | _, [] => []
  | c, x :: later => (c.endure x).outbox.filterMap Event.shot? ++ (c.endure x).ended later

def Erases (c : Controller) (s : Step) : Prop :=
  (s.call.operation? = some .clearHistory ∨ s.call.operation? = some .factoryReset) ∧
    ∀ t ∈ c.historyAttempts s, t.failure = none

variable {c : Controller} {s : Step} {shots : List Shot}

theorem keeps_of_erases (h : c.Erases s) : (c.after s).upkeep.Keeps [] := by
  obtain ⟨hx, htried⟩ := h
  have htried : ∀ t ∈ (c.after s).upkeep.medium.attempts,
      t.access.touches ShotHistory.address → t.failure = none := by
    intro t ht hta
    exact htried t (List.mem_filter.mpr ⟨ht, hta⟩)
  have hkeeps {medium : Medium} (hupkeep : (c.after s).upkeep = { (c.facing s).upkeep with
      medium, history := c.history.clear, dirty := false })
      (hl : medium.store.lookup ShotHistory.address.path = none) :
      (c.after s).upkeep.Keeps [] := by
    rw [hupkeep]
    refine ⟨c.history.sound_clear, ShotHistory.among_of_toList_eq_nil rfl, ?_, fun _ => ⟨rfl, hl⟩⟩
    intro bytes hb
    cases hl.symm.trans hb
  rcases hx with hx | hx
  · have hupkeep : (c.after s).upkeep = { (c.facing s).upkeep with
        medium := ((c.facing s).medium.delete ShotHistory.address).2
        history := c.history.clear
        dirty := false } := by
      rw [after_of_operation hx, attending_eq]
      rfl
    rw [hupkeep] at htried
    exact hkeeps hupkeep (Medium.lookup_delete_eq_none htried)
  · have hupkeep : (c.after s).upkeep = { (c.facing s).upkeep with
        medium := (eraseSpaces spaces (c.facing s).medium).2
        history := c.history.clear
        dirty := false } := by
      rw [after_of_operation hx, (perform_factoryReset ..).1, upkeep_factoryReset, attending_eq]
      rfl
    rw [hupkeep] at htried
    exact hkeeps hupkeep (Medium.lookup_eraseSpaces_eq_none (by decide) htried)

theorem keeps_endure (h : c.upkeep.Keeps shots) (x : Happening) :
    (c.endure x).upkeep.Keeps (shots ++ (c.endure x).outbox.filterMap Event.shot?) := by
  cases x with
  | restart tuning =>
    apply Upkeep.Keeps.mono
    exact ⟨ShotHistory.sound_empty, ShotHistory.among_of_toList_eq_nil (Ring.toList_empty _),
      h.stored, fun he => ⟨rfl, (h.calm he).2⟩⟩
  | step s =>
    have hfacing : (c.facing s).upkeep.Keeps shots := ⟨h.sound, h.shown, h.stored, h.calm⟩
    apply hfacing.turn (turn_after c s)
    rintro ⟨hx, ha⟩
    have hend : c.Completes (c.machine.shotRecord s.readings.uptime) (c.after s) :=
      completes_of_active hx ha
    refine ⟨_, rfl, ?_, hend.recorded⟩
    rw [endure, hend.told]
    rfl

theorem keeps_live (h : c.upkeep.Keeps shots) (later : List Happening) :
    (c.live later).upkeep.Keeps (shots ++ c.ended later) := by
  induction later generalizing c shots with
  | nil => rwa [ended, List.append_nil]
  | cons x later ih =>
    rw [ended, ← List.append_assoc]
    exact ih (keeps_endure h x)

theorem medium_serviceStats (c : Controller) (now : Nat) :
    (c.serviceStats now).medium = c.medium ∨
      (c.serviceStats now).medium = (c.stats.save c.medium).2 := by
  unfold serviceStats
  split
  · exact .inl rfl
  · split
    · right
      unfold persistStats store
      rcases c.stats.save c.medium with ⟨_ | _, medium⟩ <;> rfl
    · exact .inl rfl

theorem medium_tick_of_clean (c : Controller) (r : Readings) (h : c.historyDirty = false) :
    ∃ d : Controller, d.medium = c.medium ∧
      (c.tick r).medium = (d.serviceStats r.uptime).medium := by
  let d := ({ c with machine := c.machine.setUptime r.uptime } : Controller).creditOnTime r.uptime
  have hupkeep : d.upkeep = c.upkeep := upkeep_creditOnTime _ _
  have hdirty : (d.serviceStats r.uptime).upkeep.dirty = false := by
    rw [(spares_serviceStats d r.uptime).dirty, hupkeep]
    exact h
  have htick : (c.tick r).upkeep = (d.serviceStats r.uptime).upkeep.service r := by
    rw [tick, upkeep_checkSchedule, upkeep_rollDay, upkeep_serviceHistory]
  have hdue : (d.serviceStats r.uptime).upkeep.isDue r = false := by simp [Upkeep.isDue, hdirty]
  refine ⟨d, congrArg Upkeep.medium hupkeep, ?_⟩
  exact (congrArg Upkeep.medium htick).trans (Upkeep.medium_service (.inl hdue))

theorem space_attempts_of_clean (ht : s.call = .tick) (h : c.historyDirty = false) :
    ∀ t ∈ (c.after s).medium.attempts, t.access.space ≠ ShotHistory.space := by
  obtain ⟨d, hd, hm⟩ := medium_tick_of_clean (c.facing s) s.readings h
  have hafter : (c.after s).medium = (d.serviceStats s.readings.uptime).medium := by
    rw [← hm, after, ht]
    rfl
  have hnone : d.medium.attempts = [] := congrArg Medium.attempts hd
  have hspace : Statistics.address.space ≠ ShotHistory.space := by decide
  rw [hafter]
  rcases medium_serviceStats d s.readings.uptime with hm | hm <;> rw [hm]
  · simp [hnone]
  · obtain ⟨failure, h⟩ := d.medium.attempts_attempt (.write Statistics.address d.stats.pack)
      (·.write Statistics.address d.stats.pack)
    rw [Statistics.save, Medium.write, h]
    simp [hnone, Access.space, hspace]

/-- All that is shown or stored after an erasure are shots that ended later, in their order, and as
long as there are none the ticks leave the space of the history alone. -/
theorem erased_shots_stay_erased (c : Controller) (s : Step) (h : c.Erases s)
    (later : List Happening) :
    let d := (c.after s).live later
    let shots := (c.after s).ended later
    (∃ records, d.history.Shows records ∧
      d.historySnapshot = .array (records.map fun t => t.toJson.put "ratio" (.single t.ratio)) ∧
      (records.map Shot.unrated).Sublist shots.reverse) ∧
    (∀ bytes h, d.medium.store.lookup ShotHistory.address.path = some bytes →
      ShotHistory.ofBytes bytes = .ok h → (h.newestFirst.map Shot.unrated).Sublist shots.reverse) ∧
    (shots = [] → d.medium.store.lookup ShotHistory.address.path = none ∧
      ∀ t : Step, t.call = .tick →
        ∀ a ∈ (d.after t).medium.attempts, a.access.space ≠ ShotHistory.space) := by
  intro d shots
  have hkeeps : d.upkeep.Keeps shots := keeps_live (keeps_of_erases h) later
  refine ⟨⟨d.history.toList, d.history.shows_toList, rfl, hkeeps.shown⟩, ?_, ?_⟩
  · intro bytes h hb hread
    obtain ⟨h', hread', ha⟩ := hkeeps.stored bytes hb
    obtain rfl := Except.ok.inj (hread'.symm.trans hread)
    rw [ShotHistory.newestFirst_eq_toList]
    exact ha
  · intro hnone
    obtain ⟨hclean, hlookup⟩ := hkeeps.calm hnone
    refine ⟨hlookup, ?_⟩
    intro t ht
    exact space_attempts_of_clean ht hclean

theorem erased_shots_stay_erased_after_restart :
    let call (now : Nat) (q : Call) : Step := ⟨⟨now, none, 100000⟩, fun _ => none, q⟩
    let c := ((blank default (.reliable .empty)).boot ⟨0, none, 0⟩).run
      [call 0 (.command .startShot), call 25000 (.command .endShot)]
    let clear := call 26000 (.command .clearHistory)
    let later : List Happening := [.step (call 30000 (.command .startShot)),
      .step (call 50000 (.command .endShot)), .step (call 51000 (.command (.rateShot 0 4))),
      .step (call 60000 .tick), .restart default, .step (call 0 .boot),
      .step (call 1000 (.command .startShot)), .step (call 2000 (.command .endShot))]
    let d := (c.after clear).live later
    c.historyDirty = true ∧ c.Erases clear ∧
    d.history.newestFirst.map (fun t => (t.duration, t.rating)) = [(1000, none), (20000, some 4)] ∧
    ∃ records, d.history.Shows records ∧
      (records.map Shot.unrated).Sublist ((c.after clear).ended later).reverse := by
  intro call c clear later d
  have herases : c.Erases clear := ⟨.inl rfl, by decide +kernel⟩
  obtain ⟨⟨records, hshows, -, hsub⟩, -⟩ := erased_shots_stay_erased c clear herases later
  exact ⟨by decide +kernel, herases, by decide +kernel, records, hshows, hsub⟩

end Controller

end Espresso
