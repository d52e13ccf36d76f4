import Espresso.Proofs.Controller.Validity
import Espresso.Proofs.Controller.Watch
import Espresso.Proofs.Records
import Espresso.Proofs.Shot
import Espresso.Proofs.Storage.Capacity

namespace Espresso

namespace Medium

variable {s : Settings}

theorem withinCapacity_saveSections (hs : s.Valid) (sections : List Section) (m : Medium) :
    m.WithinCapacity (s.saveSections sections m).2 := by
  induction sections generalizing m with
  | nil => exact .refl m
  | cons n sections ih =>
    exact (withinCapacity_write m _ (n.lawful.length_stored_le (hs n))).trans (ih _)

theorem withinCapacity_saveStats (stats : Statistics) (m : Medium) :
    m.WithinCapacity (stats.save m).2 :=
  withinCapacity_write m _ stats.length_pack_le_capacity

theorem withinCapacity_saveSchedule {t : ScheduleTable} (ht : t.Sound) (m : Medium) :
    m.WithinCapacity (t.save m).2 :=
  withinCapacity_write m _ (ScheduleTable.length_pack_le_capacity ht.size_le)

theorem withinCapacity_saveHistory (h : ShotHistory) (m : Medium) :
    m.WithinCapacity (h.save m).2 := by
  unfold ShotHistory.save
  split
  · exact withinCapacity_delete m _
  · exact withinCapacity_write m _ h.length_toBytes_le

theorem withinCapacity_eraseSpaces (spaces : List String) (m : Medium) :
    m.WithinCapacity (Controller.eraseSpaces spaces m).2 := by
  induction spaces generalizing m with
  | nil => exact .refl m
  | cons space spaces ih => exact (withinCapacity_erase m space).trans (ih _)

end Medium

namespace Controller

open Medium

variable {c : Controller}

structure Sized (c : Controller) : Prop where
  valid : c.settings.Valid
  sound : c.settings.schedule.Sound

theorem sized_blank (tuning : Tuning) (m : Medium) : (blank tuning m).Sized :=
  ⟨Settings.valid_initial _, ScheduleTable.sound_default⟩

theorem Sized.after (h : c.Sized) (s : Step) : (c.after s).Sized :=
  ⟨valid_after h.valid s, sound_after c s h.sound⟩

theorem Sized.length_le (h : c.Sized) :
    (∀ n, (Text.toBytes (c.settings.stored n)).length ≤ Store.capacity) ∧
    c.stats.pack.length ≤ Store.capacity ∧ c.settings.schedule.pack.length ≤ Store.capacity ∧
    c.history.toBytes.length ≤ Store.capacity :=
  ⟨fun n => n.lawful.length_stored_le (h.valid n), c.stats.length_pack_le_capacity,
    ScheduleTable.length_pack_le_capacity h.sound.size_le, c.history.length_toBytes_le⟩

theorem medium_ifChanged {α : Type} {o : Option α} {f : α → Controller}
    (h : ∀ a, (f a).medium = c.medium) : (c.ifChanged (o.map f)).2.medium = c.medium := by
  cases o with
  | none => rfl
  | some a => exact h a

theorem withinCapacity_report {k : Core} (hk : k.settings.Valid) (t : MachineType) (force : Bool) :
    k.medium.WithinCapacity (k.report t force).medium := by
  unfold Core.report
  dsimp only
  split
  · exact .refl _
  · exact withinCapacity_saveSections (hk.setMachineType t) [.machineInfo] _

theorem withinCapacity_setSchedule (c : Controller) {t : ScheduleTable} (ht : t.Sound) :
    c.medium.WithinCapacity (c.setSchedule t).medium :=
  withinCapacity_saveSchedule ht c.medium

theorem withinCapacity_map_setSchedule {t : Except Error ScheduleTable}
    (ht : ∀ u, t = .ok u → u.Sound) :
    c.medium.WithinCapacity (c.ifGranted (t.map c.setSchedule)).2.medium := by
  cases t with
  | error e => exact .refl _
  | ok u => exact withinCapacity_setSchedule c (ht u rfl)

theorem withinCapacity_perform (h : c.Sized) (r : Readings) (x : Command) :
    c.medium.WithinCapacity (c.perform r x).2.medium := by
  have hs := h.sound
  cases x with
  | connectivity peer connected => exact .of_eq (medium_ifChanged fun _ => rfl)
  | boardBoot version resetReason t =>
    show c.medium.WithinCapacity (c.bootBoard version resetReason t).core.medium
    rw [core_bootBoard]
    exact withinCapacity_report (k := c.core) h.valid t false
  | reportState state => exact .of_eq (medium_ifChanged fun _ => rfl)
  | setMode mode =>
    apply WithinCapacity.of_eq
    apply medium_ifChanged
    intro machine
    dsimp only
    split <;> rfl
  | startShot => exact .of_eq (medium_ifChanged fun _ => rfl)
  | endShot =>
    apply WithinCapacity.of_eq
    rw [perform, endShot, Option.map_map]
    exact medium_ifChanged fun _ => rfl
  | rateShot index rating =>
    simp only [perform, rateShot]
    cases c.history.rate index rating with
    | error e => exact .refl _
    | ok history =>
      obtain ⟨historyDirty, historySaveDue, hm⟩ := markHistory_frame { c with history } r
      exact .of_eq (congrArg Controller.medium hm :)
  | clearHistory => exact withinCapacity_saveHistory c.history.clear c.medium
  | energy amount => exact .of_eq (medium_ifChanged fun _ => rfl)
  | maintenance kind =>
    have hm : (c.perform r (.maintenance kind)).2.medium =
        ((c.stats.recordMaintenance kind (c.timestamp r)).save c.medium).2 :=
      congrArg Core.medium (core_recordMaintenance c r kind)
    rw [hm]
    exact withinCapacity_saveStats ..
  | addSchedule e =>
    simp only [perform, addSchedule]
    cases ha : c.settings.schedule.add e with
    | error e => exact .refl _
    | ok p => exact withinCapacity_setSchedule c (hs.add ha)
  | updateSchedule id e => exact withinCapacity_map_setSchedule fun _ hu => hs.update hu
  | removeSchedule id => exact withinCapacity_map_setSchedule fun _ hu => hs.remove hu
  | enableSchedule id enabled => exact withinCapacity_map_setSchedule fun _ hu => hs.enable hu
  | autoOff enabled minutes => exact withinCapacity_map_setSchedule fun _ hu => hs.setAutoOff hu
  | setMachineType t force =>
    show c.medium.WithinCapacity (c.setMachineType t force).2.core.medium
    rw [core_setMachineType]
    exact withinCapacity_report (k := c.core) h.valid t force
  | factoryReset =>
    have hm : (c.factoryReset r).2.medium = (eraseSpaces spaces c.medium).2 :=
      congrArg Core.medium (core_factoryReset c r)
    rw [(perform_factoryReset c r).1, hm]
    exact withinCapacity_eraseSpaces ..
  | _ => exact .refl _

theorem withinCapacity_tick (c : Controller) (r : Readings) :
    c.medium.WithinCapacity (c.tick r).medium := by
  have hstats (d : Controller) : d.medium.WithinCapacity (d.serviceStats r.uptime).core.medium := by
    rcases core_serviceStats d r.uptime with hd | hd <;> rw [hd]
    · exact .refl _
    · exact withinCapacity_saveStats ..
  have hhistory (d : Controller) : d.medium.WithinCapacity (d.serviceHistory r).core.medium := by
    rcases core_serviceHistory d r with hd | ⟨-, hd⟩ <;> rw [hd]
    · exact .refl _
    · exact withinCapacity_saveHistory ..
  have hcheck (k : Core) : (k.check r).medium = k.medium := by
    unfold Core.check
    split <;> rfl
  let d := ({ c with machine := c.machine.setUptime r.uptime } : Controller).creditOnTime r.uptime
  have hcredit : d.medium = c.medium := congrArg Core.medium (core_creditOnTime ..)
  have htick : (c.tick r).medium = ((d.serviceStats r.uptime).serviceHistory r).core.medium := by
    refine (congrArg Core.medium (core_checkSchedule ..)).trans ?_
    rw [hcheck, core_rollDay]
  rw [htick, ← hcredit]
  exact (hstats d).trans (hhistory _)

theorem withinCapacity_call (h : c.Sized) (r : Readings) (q : Call) :
    c.medium.WithinCapacity (c.call r q).2.medium := by
  have hsections (settings : Settings) (hv : settings.Valid) (sections : List Section) :
      c.medium.WithinCapacity (c.core.store (settings.saveSections sections)).medium :=
    withinCapacity_saveSections hv sections c.medium
  cases q with
  | command x =>
    show c.medium.WithinCapacity (c.handle r x).2.medium
    unfold handle
    split
    · exact withinCapacity_perform h r x
    · exact withinCapacity_perform (c := c.resetIdle r) ⟨h.valid, h.sound⟩ r x
  | direct x => exact withinCapacity_perform h r x
  | applySection name fields =>
    show c.medium.WithinCapacity (c.counted (c.applySection name fields)).2.core.medium
    rcases core_applySection c name fields with hc | ⟨n, hc⟩ <;> rw [hc]
    · exact .refl _
    · exact hsections _ (h.valid.patch n fields) [n]
  | applySettings document =>
    show c.medium.WithinCapacity (c.counted (c.applySettings document)).2.core.medium
    rcases core_applySettings c document with hc | hc <;> rw [hc]
    · exact .refl _
    · exact hsections _ (h.valid.patchAll document) _
  | saveSection n =>
    show c.medium.WithinCapacity (c.saveSection n).2.core.medium
    rw [core_saveSection]
    exact hsections _ h.valid [n]
  | saveAll =>
    show c.medium.WithinCapacity c.saveAll.2.core.medium
    rw [core_saveAll]
    split
    · exact (hsections _ h.valid Section.all).trans (withinCapacity_saveSchedule h.sound _)
    · exact hsections _ h.valid Section.all
  | resetSettings =>
    show c.medium.WithinCapacity c.resetSettings.2.core.medium
    rw [core_resetSettings]
    exact hsections _ (Settings.valid_initial _) Section.all
  | tick => exact withinCapacity_tick c r
  | _ => exact .refl _

theorem withinCapacity_after (h : c.Sized) (s : Step) :
    (c.facing s).medium.WithinCapacity (c.after s).medium :=
  withinCapacity_call (c := c.facing s) ⟨h.valid, h.sound⟩ s.readings s.call

theorem keeps_run (tuning : Tuning) (m : Medium) (steps : List Step) :
    let c := (blank tuning m).run steps
    c.Sized ∧ c.medium.store.available = m.store.available ∧
      (m.store.Fits → c.medium.store.Fits) := by
  refine run_induction (P := fun c => c.Sized ∧ c.medium.store.available = m.store.available ∧
    (m.store.Fits → c.medium.store.Fits)) ⟨sized_blank tuning m, rfl, id⟩ ?_
  rintro c s - ⟨hsized, havailable, hfits⟩
  have hstep := withinCapacity_after hsized s
  exact ⟨hsized.after s, hstep.available.trans havailable, fun hm => hstep.fits (hfits hm)⟩

/-- Through its requests a store takes in no blob that cannot be read whole. A controller comes to no
blob that does not fit: whatever it is asked for, over an available store nothing fails but what the
medium refuses, and what is in the store is read whole. -/
theorem blobs_fit :
    (∀ rs : List Request, (Store.empty.served rs).Fits) ∧
    ∀ (tuning : Tuning) (m : Medium) (steps : List Step),
      let c := (blank tuning m).run steps
      ((∀ n, (Text.toBytes (c.settings.stored n)).length ≤ 4000) ∧ c.stats.pack.length ≤ 4000 ∧
        c.settings.schedule.pack.length ≤ 4000 ∧ c.history.toBytes.length ≤ 4000) ∧
      ∀ s : Step,
        (∀ t ∈ (c.after s).medium.attempts, t.access.Fits ∧
          (m.store.available = true → t.failure = s.refuses t.access)) ∧
        (m.store.available = true → m.store.Fits → ∀ a data,
          c.medium.store.lookup a.path = some data → s.refuses (.read a) = none →
            (c.facing s).medium.read a = .ok data) := by
  refine ⟨Store.fits_empty.served, ?_⟩
  intro tuning m steps c
  obtain ⟨hsized, havailable, hfits⟩ := keeps_run tuning m steps
  refine ⟨hsized.length_le, ?_⟩
  intro s
  constructor
  · intro t ht
    have htried := (withinCapacity_after hsized s).tried t ht
    obtain ⟨haccess, hfailure⟩ := htried.resolve_left List.not_mem_nil
    exact ⟨haccess, fun hm => hfailure (havailable.trans hm)⟩
  · intro hm hmfits a data hl hr
    exact read_of_fits (havailable.trans hm) hr (hfits hmfits) hl

theorem blobs_fit_of_quotes :
    let quotes := String.ofList (List.replicate 20 '"')
    let c := (blank default (.reliable .empty)).run [
      ⟨⟨0, none, 0⟩, fun _ => none,
        .applySection "cloud" (.object [("serverUrl", .text quotes)])⟩]
    let s : Step := ⟨⟨1000, none, 0⟩, fun _ => none, .saveSection .cloud⟩
    let blob := Text.toBytes (c.settings.stored .cloud)
    c.settings.cloud.serverUrl = quotes ∧ 40 < blob.length ∧ blob.length ≤ 4000 ∧
    (c.after s).medium.attempts.length = 1 ∧
    (∀ t ∈ (c.after s).medium.attempts, t.failure = none) ∧
    (c.facing s).medium.read (Settings.address .cloud) = .ok blob := by
  intro quotes c s blob
  have hstored : c.medium.store.lookup (Settings.address .cloud).path = some blob := by
    decide +kernel
  obtain ⟨⟨hsections, -⟩, hstep⟩ := blobs_fit.2 default (.reliable .empty) [
    ⟨⟨0, none, 0⟩, fun _ => none,
      .applySection "cloud" (.object [("serverUrl", .text quotes)])⟩]
  obtain ⟨htried, hread⟩ := hstep s
  refine ⟨by decide +kernel, by decide +kernel, hsections .cloud, by decide +kernel, ?_, ?_⟩
  · intro t ht
    exact (htried t ht).2 rfl
  · exact hread rfl Store.fits_empty _ blob hstored rfl

end Controller

end Espresso
