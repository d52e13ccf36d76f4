import Espresso.Proofs.Controller.Silence
import Espresso.Proofs.Controller.Standing
import Espresso.Proofs.Shot.Changes
import Espresso.Proofs.Statistics.Counters

namespace Espresso

def ShotHistory.Change.shot? : ShotHistory.Change → Option Shot
  | .add s => some s
  | _ => none

def Command.sparesShots : Command → Bool
  | .endShot | .rateShot _ _ | .clearHistory | .factoryReset => false
  | _ => true

def Call.sparesShots : Call → Bool
  | .command _ | .direct _ | .boot => false
  | _ => true

def Command.historyChange? (m : Machine) (r : Readings) : Command → Option ShotHistory.Change
  | .endShot => if m.live.shotActive then some (.add (m.shotRecord r.uptime)) else none
  | .rateShot index rating => some (.rate index rating)
  | .clearHistory => some .clear
  | .factoryReset => some .clear
  | _ => none

namespace Tally

inductive Becomes (k : Tally) : Option ShotHistory.Change → Tally → Prop where
  | spared : k.Becomes none k
  | completed (shot : Shot) : k.Becomes (some (.add shot))
    { history := k.history.add shot
      total := saturatingAdd k.total 1
      told := k.told ++ [shot] }
  | changed {change : ShotHistory.Change} {total : UInt32} (h : change.shot? = none)
    (ht : total ≤ k.total) : k.Becomes (some change)
      { k with history := k.history.change change, total }
  | loaded (m : Medium) (total : UInt32) : k.Becomes (some (.load m))
    { k with history := k.history.change (.load m), total }

variable {k k' : Tally} {change : Option ShotHistory.Change}

theorem Becomes.history (h : k.Becomes change k') :
    k'.history = k.history.changes change.toList := by
  cases h <;> rfl

theorem Becomes.told (h : k.Becomes change k') :
    k'.told = k.told ++ change.toList.filterMap ShotHistory.Change.shot? := by
  cases h with
  | spared => exact (List.append_nil _).symm
  | completed shot => rfl
  | changed hs ht => simp [hs]
  | loaded m total => exact (List.append_nil _).symm

theorem Becomes.total (h : k.Becomes change k') (hk : k.total.toNat < greatestCount)
    (hm : ∀ m, change ≠ some (.load m)) :
    k'.total.toNat - k.total.toNat =
      (change.toList.filterMap ShotHistory.Change.shot?).length := by
  cases h with
  | spared => exact Nat.sub_self _
  | completed shot =>
    have hone : (saturatingAdd k.total 1).toNat = min (k.total.toNat + 1) greatestCount :=
      toNat_saturatingAdd k.total 1
    show (saturatingAdd k.total 1).toNat - k.total.toNat = 1
    omega
  | changed hs ht => simp [hs, Nat.sub_eq_zero_of_le (UInt32.le_iff_toNat_le.mp ht)]
  | loaded m total => exact absurd rfl (hm m)

end Tally

namespace Controller

structure Completes (c : Controller) (shot : Shot) (d : Controller) : Prop where
  recorded : d.history = c.history.add shot
  shots : d.history.toList = (shot :: c.history.toList).take ShotHistory.capacity
  newest : d.history.get? 0 = some shot
  counted : d.stats = c.stats.recordShot
  counts : ∀ k, (d.stats.count k).toNat =
    min ((c.stats.count k).toNat + if k.countsShots then 1 else 0) greatestCount
  told : d.outbox = [.statsChanged d.stats, .shotCompleted shot, .stateChanged d.machine.live]
  ended : d.machine.live.shotActive = false

def historyChange? (c : Controller) (s : Step) : Option ShotHistory.Change :=
  match s.call with
  | .command x => x.historyChange? c.machine s.readings
  | .direct x => x.historyChange? c.machine s.readings
  | .boot => some (.load (c.facing s).medium)
  | _ => none

def historyChanges : Controller → List Step → List ShotHistory.Change
  | _, [] => []
  | c, s :: steps => (c.historyChange? s).toList ++ (c.after s).historyChanges steps

def shotsCounted : Controller → List Step → Nat
  | _, [] => 0
  | c, s :: steps =>
    (match s.call with
      | .boot => 0
      | _ => (c.after s).stats.totalShots.toNat - c.stats.totalShots.toNat) +
    (c.after s).shotsCounted steps

variable {c : Controller} {s : Step} {steps : List Step}

theorem tally_syncType (c : Controller) : c.syncType.tally = c.tally := by
  unfold syncType
  split
  · exact tally_publish _ rfl
  · rfl

theorem tally_adopt (c : Controller) (settings : Settings) (touched : List Section) :
    (c.adopt settings touched).tally = c.tally := by
  have hpersist (d : Controller) : (touched.foldl persist d).tally = d.tally :=
    congrArg Standing.tally (standing_foldl_persist d touched)
  refine (tally_publish _ rfl).trans ((hpersist _).trans ?_)
  split
  · exact tally_syncType _
  · rfl

theorem tally_applySection (c : Controller) (name : String) (fields : Json) :
    (c.counted (c.applySection name fields)).2.tally = c.tally := by
  obtain ⟨h, -⟩ | ⟨n, -, h⟩ := applySection_cases c name fields <;> rw [h]
  exact tally_adopt ..

theorem tally_applySettings (c : Controller) (document : Json) :
    (c.counted (c.applySettings document)).2.tally = c.tally := by
  obtain ⟨h, -⟩ | h := applySettings_cases c document <;> rw [h]
  exact tally_adopt ..

theorem tally_resetSettings (c : Controller) : c.resetSettings.2.tally = c.tally :=
  (congrArg Standing.tally (standing_publishStored _)).trans (tally_syncType _)

theorem tally_setMachineType (c : Controller) (t : MachineType) (force : Bool) :
    (c.setMachineType t force).2.tally = c.tally := by
  refine (tally_syncType _).trans ?_
  split
  · rfl
  · exact tally_publish _ rfl

theorem tally_perform (c : Controller) (r : Readings) {x : Command} (hx : x.sparesShots = true) :
    (c.perform r x).2.tally = c.tally := by
  cases x with
  | boardBoot version resetReason t =>
    exact (tally_publish _ rfl).trans (tally_setMachineType _ t false)
  | setMachineType t force => exact tally_setMachineType c t force
  | endShot => cases hx
  | rateShot index rating => cases hx
  | clearHistory => cases hx
  | factoryReset => cases hx
  | _ => exact congrArg Standing.tally (standing_perform c r rfl)

theorem tally_call (c : Controller) (r : Readings) {q : Call} (hq : q.sparesShots = true) :
    (c.call r q).2.tally = c.tally := by
  cases q with
  | applySection name fields => exact tally_applySection c name fields
  | applySettings document => exact tally_applySettings c document
  | resetSettings => exact tally_resetSettings c
  | command x => cases hq
  | direct x => cases hq
  | boot => cases hq
  | _ => exact congrArg Standing.tally (standing_call c r rfl)

theorem endShot_attending (c : Controller) (s : Step) :
    (c.attending s).machine.endShot s.readings.uptime = c.machine.endShot s.readings.uptime := by
  rw [attending_eq]

theorem completes_of_active (hx : s.call.operation? = some .endShot)
    (ha : c.machine.live.shotActive = true) :
    c.Completes (c.machine.shotRecord s.readings.uptime) (c.after s) := by
  rw [after_of_operation hx, perform, endShot, endShot_attending, Machine.endShot, if_pos ha,
    attending_eq]
  refine ⟨rfl, ShotHistory.toList_add .., ?_, rfl, fun k => c.stats.toNat_count_change .shot k, rfl,
    rfl⟩
  rw [ShotHistory.get?_eq_getElem?]
  exact congrArg (·[0]?) (ShotHistory.toList_add ..)

theorem after_of_inactive (hx : s.call.operation? = some .endShot)
    (ha : c.machine.live.shotActive = false) : c.after s = c.attending s := by
  rw [after_of_operation hx, perform, endShot, endShot_attending, Machine.endShot,
    if_neg (by rw [ha]; exact Bool.false_ne_true)]
  rfl

theorem tally_attending (c : Controller) (s : Step) :
    (c.attending s).tally = (c.facing s).tally := congrArg Standing.tally (standing_attending c s)

theorem becomes_rateShot (c : Controller) (r : Readings) (index : Nat) (rating : UInt8) :
    c.tally.Becomes (some (.rate index rating))
      (c.ifGranted (c.rateShot r index rating)).2.tally := by
  have h : c.tally.Becomes (some (.rate index rating)) { c.tally with
      history := (c.history.rate index rating).toOption.getD c.history } :=
    .changed rfl (UInt32.le_refl _)
  rw [rateShot]
  cases hr : c.history.rate index rating with
  | error e =>
    rw [hr] at h
    exact h
  | ok history =>
    rw [hr] at h
    have hmark : (Controller.markHistory { c with history } r).tally = { c.tally with history } :=
      congrArg Standing.tally (standing_markHistory { c with history } r)
    exact hmark.symm ▸ h

theorem tally_factoryReset (c : Controller) (r : Readings) :
    (c.factoryReset r).2.tally = { c.tally with history := c.history.clear, total := 0 } :=
  (tally_publish _ rfl).trans ((tally_publish _ rfl).trans (tally_syncType _))

theorem becomes_of_operation {x : Command} (hx : s.call.operation? = some x) :
    (c.facing s).tally.Becomes (x.historyChange? c.machine s.readings) (c.after s).tally := by
  cases x with
  | endShot =>
    rw [Command.historyChange?]
    cases ha : c.machine.live.shotActive with
    | true =>
      have h := completes_of_active hx ha
      generalize c.machine.shotRecord s.readings.uptime = shot at h
      have hd : (c.after s).tally =
          ⟨c.history.add shot, saturatingAdd c.stats.totalShots 1, [shot]⟩ := by
        rw [tally, h.recorded, h.counted, h.told]
        rfl
      rw [if_pos rfl, hd]
      exact .completed _
    | false =>
      rw [after_of_inactive hx ha, tally_attending]
      exact .spared
  | rateShot index rating =>
    rw [after_of_operation hx, ← tally_attending]
    exact becomes_rateShot ..
  | clearHistory =>
    rw [after_of_operation hx, ← tally_attending]
    exact .changed rfl (UInt32.le_refl _)
  | factoryReset =>
    rw [after_of_operation hx, ← tally_attending, (perform_factoryReset ..).1, tally_factoryReset]
    exact .changed rfl UInt32.zero_le
  | _ =>
    rw [after_of_operation hx, tally_perform _ _ rfl, tally_attending]
    exact .spared

theorem becomes_after (c : Controller) (s : Step) :
    (c.facing s).tally.Becomes (c.historyChange? s) (c.after s).tally := by
  rw [historyChange?]
  cases hq : s.call with
  | command x => exact becomes_of_operation (congrArg Call.operation? hq)
  | direct x => exact becomes_of_operation (congrArg Call.operation? hq)
  | boot =>
    rw [after, hq]
    exact .loaded _ _
  | _ =>
    rw [after, hq, tally_call _ _ rfl]
    exact .spared

theorem history_after (c : Controller) (s : Step) :
    (c.after s).history = c.history.changes (c.historyChange? s).toList :=
  (becomes_after c s).history

theorem shots_after (c : Controller) (s : Step) :
    (c.after s).outbox.filterMap Event.shot? =
      (c.historyChange? s).toList.filterMap ShotHistory.Change.shot? :=
  (becomes_after c s).told

theorem historyChange_ne_load (hb : s.call ≠ .boot) (m : Medium) :
    c.historyChange? s ≠ some (.load m) := by
  have hx (x : Command) : x.historyChange? c.machine s.readings ≠ some (.load m) := by
    cases x with
    | endShot =>
      rw [Command.historyChange?]
      split <;> nofun
    | _ => nofun
  rw [historyChange?]
  split
  · exact hx _
  · exact hx _
  · next hq => exact absurd hq hb
  · nofun

theorem history_run (c : Controller) (steps : List Step) :
    (c.run steps).history = c.history.changes (c.historyChanges steps) := by
  induction steps generalizing c with
  | nil => rfl
  | cons s steps ih =>
    rw [run_cons, ih, history_after, historyChanges]
    exact List.foldl_append.symm

theorem shots_published (c : Controller) (steps : List Step) :
    (c.published steps).filterMap Event.shot? =
      (c.historyChanges steps).filterMap ShotHistory.Change.shot? := by
  induction steps generalizing c with
  | nil => rfl
  | cons s steps ih =>
    rw [published, historyChanges, List.filterMap_append, List.filterMap_append, ih, shots_after]

theorem shotsCounted_eq
    (h : c.Throughout (fun d _ => d.stats.totalShots.toNat < greatestCount) steps) :
    c.shotsCounted steps =
      ((c.historyChanges steps).filterMap ShotHistory.Change.shot?).length := by
  induction steps generalizing c with
  | nil => rfl
  | cons s steps ih =>
    rw [shotsCounted, historyChanges, List.filterMap_append, List.length_append, ih h.2]
    congr 1
    split
    · next hq =>
      rw [historyChange?, hq]
      rfl
    · next hb => exact (becomes_after c s).total h.1 (historyChange_ne_load hb)

/-- A shot that ends is recorded, counted and told in one step, and nothing happens where none runs,
but that a request counts as activity. So in a run there are as many shots told as recorded, in the
same order, and as many as are counted while the count is not at its greatest. -/
theorem shot_completion_is_atomic (c : Controller) :
    (∀ s : Step, s.call.operation? = some .endShot →
      (c.machine.live.shotActive = true →
        c.Completes (c.machine.shotRecord s.readings.uptime) (c.after s)) ∧
      (c.machine.live.shotActive = false → c.after s = { c with
        engine := if s.call.isRequest then c.engine.resetIdle s.readings.uptime else c.engine
        outbox := []
        medium := { c.medium with refuses := s.refuses, attempts := [] } })) ∧
    ∀ steps : List Step,
      (c.run steps).history = c.history.changes (c.historyChanges steps) ∧
      (c.published steps).filterMap Event.shot? =
        (c.historyChanges steps).filterMap ShotHistory.Change.shot? ∧
      (c.Throughout (fun d _ => d.stats.totalShots.toNat < greatestCount) steps →
        c.shotsCounted steps = ((c.published steps).filterMap Event.shot?).length) := by
  refine ⟨?_, ?_⟩
  · intro s hx
    refine ⟨completes_of_active hx, ?_⟩
    intro ha
    rw [after_of_inactive hx ha, attending_eq]
  · intro steps
    refine ⟨history_run c steps, shots_published c steps, ?_⟩
    intro h
    rw [shots_published]
    exact shotsCounted_eq h

theorem shot_completion_is_atomic_in_fault :
    let c := (blank default (.reliable .empty)).boot ⟨0, none, 0⟩
    let call (now : Nat) (x : Command) : Step := ⟨⟨now, none, 0⟩, fun _ => none, .command x⟩
    let steps := [call 0 .startShot, call 9000 (.reportState .fault), call 9500 .clearHistory]
    let stop := call 25000 .endShot
    let d := c.run steps
    d.machine.live.state = .fault ∧
    d.Completes (d.machine.shotRecord 25000) (d.after stop) ∧
    ((d.after stop).after stop).outbox = [] ∧
    c.shotsCounted (steps ++ [stop, stop]) =
      ((c.published (steps ++ [stop, stop])).filterMap Event.shot?).length := by
  intro c call steps stop d
  have hd : d.machine.live.state = .fault ∧ d.machine.live.shotActive = true := by decide +kernel
  have hended := (shot_completion_is_atomic (d.after stop)).1 stop rfl
  obtain ⟨hend, -⟩ := (shot_completion_is_atomic d).1 stop rfl
  obtain ⟨-, -, hcounted⟩ := (shot_completion_is_atomic c).2 (steps ++ [stop, stop])
  refine ⟨hd.1, hend hd.2, ?_, hcounted ?_⟩
  · rw [hended.2 (hend hd.2).ended]
  · exact ⟨by decide +kernel, by decide +kernel, by decide +kernel, by decide +kernel,
      by decide +kernel, trivial⟩

end Controller

end Espresso
