import Espresso.Proofs.Binary
import Espresso.Proofs.Machine.Fault

namespace Espresso

namespace ShotWindow

def extend (w : ShotWindow) (pressures : List (Nat × Single)) (temperatures : List Single) :
    ShotWindow :=
  { w with
    peak := Binary.greatest w.peak (pressures.map Prod.snd)
    temperatureSum := temperatures.foldl Binary.add w.temperatureSum
    temperatures := w.temperatures + .ofNat temperatures.length
    fullPressure := w.fullPressure.or
      ((pressures.find? fun p => fullBar.le p.2).map Prod.fst) }

variable {pressures : List (Nat × Single)} {temperatures : List Single}

theorem extend_nil (w : ShotWindow) : w.extend [] [] = w := by
  have hcount : w.temperatures + .ofNat ([] : List Single).length = w.temperatures :=
    UInt32.add_zero _
  rw [extend, List.find?_nil, Option.map_none, Option.or_none, hcount]
  rfl

theorem extend_gather_temperatures (w : ShotWindow) (now : Nat) (brew steam : Single) :
    (w.gather now (.temperatures brew steam)).extend pressures temperatures =
      w.extend pressures (if brew.isFinite then brew :: temperatures else temperatures) := by
  rw [gather]
  split
  · have hcount : w.temperatures + 1 + .ofNat temperatures.length =
        w.temperatures + .ofNat (brew :: temperatures).length := by
      rw [List.length_cons, UInt32.ofNat_add, UInt32.add_assoc, UInt32.add_comm 1]
      rfl
    rw [extend, extend, ← hcount]
    rfl
  · rfl

theorem extend_gather_pressure (w : ShotWindow) (now : Nat) (bar : Single) :
    (w.gather now (.pressure bar)).extend pressures temperatures =
      w.extend ((now, bar) :: pressures) temperatures := by
  rw [extend, extend, gather, List.find?_cons]
  -- A full pressure that is known already stays the first one.
  by_cases hf : fullBar.le bar = true
  · rw [hf, if_pos rfl]
    cases w.fullPressure <;> rfl
  · rw [if_neg hf, Bool.eq_false_iff.mpr hf]
    rfl

end ShotWindow

namespace Machine

namespace Act

def weight? : Act → Option Single
  | .observe _ (.scale weight _ _) => some weight
  | _ => none

def pressure? : Act → Option (Nat × Single)
  | .observe now (.pressure bar) => some (now, bar)
  | _ => none

def brewTemp? : Act → Option Single
  | .observe _ (.temperatures brew _) => some brew
  | _ => none

def gather (w : ShotWindow) : Act → ShotWindow
  | .observe now sample => w.gather now sample
  | _ => w

end Act

def weights (acts : List Act) : List Single := acts.filterMap Act.weight?

def pressures (acts : List Act) : List (Nat × Single) := acts.filterMap Act.pressure?

def temperatures (acts : List Act) : List Single :=
  (acts.filterMap Act.brewTemp?).filter Binary.isFinite

structure Brews (m : Machine) (start : Nat) (weight : Single) (w : ShotWindow) : Prop where
  active : m.live.shotActive = true
  start_eq : m.live.shotStart = start
  weight_eq : m.live.shotWeight = weight
  gathered : m.shot = w

variable {m k : Machine} {start stop : Nat} {weight : Single} {w : ShotWindow} {a : Act}
  {acts : List Act}

theorem brews_of_startShot {timestamp : UInt32} {other : Single}
    (h : m.startShot start timestamp other = some k) :
    k.Brews start 0 (.start timestamp (m.live.dose other)) := by
  obtain ⟨-, hk⟩ := (Option.ite_none_left_eq_some ..).mp h
  obtain rfl := Option.some.inj hk
  exact ⟨rfl, rfl, rfl, rfl⟩

theorem Brews.act (h : m.Brews start weight w) (ha : a.endsShot = false) :
    (m.act a).Brews start (a.weight?.getD weight) (a.gather w) := by
  obtain ⟨hactive, hstart, hweight, hshot⟩ := h
  cases a with
  | observe now sample =>
    have hgather : (m.observe now sample).shot = w.gather now sample := by
      rw [← hshot]
      exact if_pos hactive
    cases sample with
    | scale weight flow stable => exact ⟨hactive, hstart, if_pos hactive, hgather⟩
    | _ => exact ⟨hactive, hstart, hweight, hgather⟩
  | setState state =>
    simp only [Machine.act, setState]
    split <;> exact ⟨hactive, hstart, hweight, hshot⟩
  | setMode mode =>
    simp only [Machine.act, setMode]
    split <;> exact ⟨hactive, hstart, hweight, hshot⟩
  | setConnected peer connected =>
    simp only [Machine.act, setConnected]
    split
    · exact ⟨hactive, hstart, hweight, hshot⟩
    · cases peer <;> exact ⟨hactive, hstart, hweight, hshot⟩
  | setType machineType =>
    simp only [Machine.act, setType]
    split <;> exact ⟨hactive, hstart, hweight, hshot⟩
  | setBoard version resetReason => exact ⟨hactive, hstart, hweight, hshot⟩
  | setUptime now => exact ⟨hactive, hstart, hweight, hshot⟩
  | startShot now timestamp other =>
    have hrefused : m.startShot now timestamp other = none := if_pos (.inl hactive)
    simp only [Machine.act, hrefused]
    exact ⟨hactive, hstart, hweight, hshot⟩
  | endShot now => cases ha

theorem Brews.run (h : m.Brews start weight w) (ha : ∀ a ∈ acts, a.endsShot = false) :
    (m.run acts).Brews start ((weights acts).getLast?.getD weight) (acts.foldl Act.gather w) := by
  induction acts generalizing m weight w with
  | nil => exact h
  | cons a acts ih =>
    have hrun := ih (h.act (ha a (List.mem_cons_self ..)))
      fun b hb => ha b (List.mem_cons_of_mem _ hb)
    have hlast : (weights (a :: acts)).getLast?.getD weight =
        (weights acts).getLast?.getD (a.weight?.getD weight) := by
      unfold weights
      cases hw : a.weight? with
      | none => rw [List.filterMap_cons_none hw]; rfl
      | some x =>
        rw [List.filterMap_cons_some hw, List.getLast?_cons]
        rfl
    rw [run_cons, hlast]
    exact hrun

theorem Brews.endShot (h : m.Brews start weight w) (stop : Nat) :
    ∃ k, m.endShot stop = some (m.shotRecord stop, k) := ⟨_, if_pos h.active⟩

theorem gathered_eq (w : ShotWindow) (acts : List Act) :
    acts.foldl Act.gather w = w.extend (pressures acts) (temperatures acts) := by
  induction acts generalizing w with
  | nil => exact w.extend_nil.symm
  | cons a acts ih =>
    rw [List.foldl_cons, ih]
    cases a with
    | observe now sample =>
      cases sample with
      | temperatures brew steam =>
        have ht : temperatures (.observe now (.temperatures brew steam) :: acts) =
            if brew.isFinite then brew :: temperatures acts else temperatures acts :=
          List.filter_cons
        rw [ht]
        exact w.extend_gather_temperatures now brew steam
      | pressure bar => exact w.extend_gather_pressure now bar
      | _ => rfl
    | _ => rfl

def summary (timestamp : UInt32) (dose : Single) (start stop : Nat) (acts : List Act) : Shot :=
  let duration := saturate (stop - start)
  let yield := (weights acts).getLast?.getD 0
  let count : UInt32 := .ofNat (temperatures acts).length
  { timestamp, dose, yield, duration
    preinfusion := ((pressures acts).find? fun p => (4 : Single).le p.2).elim 0 fun p =>
      saturate (p.1 - start)
    flow := if duration = 0 then 0 else yield.div ((Binary.ofNat duration.toNat).div 1000)
    peak := Binary.greatest 0 ((pressures acts).map Prod.snd)
    temperature := if count = 0 then 0
      else ((temperatures acts).foldl Binary.add 0).div (Binary.ofNat count.toNat)
    rating := none }

theorem Brews.shotRecord_run {timestamp : UInt32} {dose : Single}
    (h : m.Brews start 0 (.start timestamp dose)) (ha : ∀ a ∈ acts, a.endsShot = false)
    (stop : Nat) : (m.run acts).shotRecord stop = summary timestamp dose start stop acts := by
  have hrun := h.run ha
  rw [gathered_eq] at hrun
  unfold shotRecord
  rw [hrun.start_eq, hrun.weight_eq, hrun.gathered]
  simp only [ShotWindow.extend, ShotWindow.start, UInt32.zero_add, Option.none_or, Option.elim_map]
  rfl

structure Summarises (shot : Shot) (acts : List Act) (start stop : Nat) : Prop where
  yield_eq : shot.yield = (weights acts).getLast?.getD 0
  duration_eq : shot.duration.toNat = min (stop - start) greatestCount
  preinfusion_eq : shot.preinfusion.toNat =
    ((pressures acts).find? fun p => (4 : Single).le p.2).elim 0 fun p =>
      min (p.1 - start) greatestCount
  preinfusion_le : (∀ p ∈ pressures acts, p.1 ≤ stop) → shot.preinfusion ≤ shot.duration
  le_peak : (0 : Single).le shot.peak = true ∧
    ∀ p ∈ pressures acts, p.2.isNaN = false → p.2.le shot.peak = true
  peak_mem : shot.peak = 0 ∨
    (0 : Single).lt shot.peak = true ∧ shot.peak ∈ (pressures acts).map Prod.snd
  temperature_eq : (temperatures acts).length < UInt32.size →
    shot.temperature = if temperatures acts = [] then 0
      else ((temperatures acts).foldl Binary.add 0).div (Binary.ofNat (temperatures acts).length)
  flow_eq : shot.flow = if shot.duration = 0 then 0
    else shot.yield.div ((Binary.ofNat shot.duration.toNat).div 1000)
  rating_eq : shot.rating = none

theorem summarises_summary (timestamp : UInt32) (dose : Single) (start stop : Nat)
    (acts : List Act) : Summarises (summary timestamp dose start stop acts) acts start stop := by
  have hzero : (0 : Single).isNaN = false := rfl
  have hpeak := Binary.le_greatest hzero ((pressures acts).map Prod.snd)
  have hpreinfusion : (summary timestamp dose start stop acts).preinfusion.toNat =
      ((pressures acts).find? fun p => (4 : Single).le p.2).elim 0 fun p =>
        min (p.1 - start) greatestCount := by
    unfold summary
    cases (pressures acts).find? fun p => (4 : Single).le p.2 with
    | none => rfl
    | some p => exact toNat_saturate _
  constructor
  case yield_eq => rfl
  case duration_eq => exact toNat_saturate _
  case preinfusion_eq => exact hpreinfusion
  case preinfusion_le =>
    intro hstop
    have hduration : (summary timestamp dose start stop acts).duration.toNat =
        min (stop - start) greatestCount := toNat_saturate _
    rw [UInt32.le_iff_toNat_le, hpreinfusion, hduration]
    cases hfull : (pressures acts).find? fun p => (4 : Single).le p.2 with
    | none => exact Nat.zero_le _
    | some p =>
      have hp := hstop p (List.mem_of_find?_eq_some hfull)
      simp only [Option.elim_some]
      omega
  case le_peak =>
    refine ⟨hpeak.1, ?_⟩
    intro p hp hn
    exact hpeak.2 p.2 (List.mem_map_of_mem hp) hn
  case peak_mem => exact Binary.greatest_mem ..
  case temperature_eq =>
    intro hcount
    have hlength : (UInt32.ofNat (temperatures acts).length).toNat = (temperatures acts).length :=
      UInt32.toNat_ofNat_of_lt' hcount
    have hnone : UInt32.ofNat (temperatures acts).length = 0 ↔ temperatures acts = [] := by
      rw [← UInt32.toNat_inj, hlength, UInt32.toNat_zero, List.length_eq_zero_iff]
    simp only [summary, hnone, hlength]
  case flow_eq => rfl
  case rating_eq => rfl

/-- A shot that began ends with a record of its own: of the dose it began with and of the readings
since. Neither what the machine was before nor what else was done meanwhile has a part in it. -/
theorem shot_is_summary {timestamp : UInt32} {otherDose : Single} (stop : Nat)
    (hs : m.startShot start timestamp otherDose = some k) (ha : ∀ a ∈ acts, a.endsShot = false) :
    ∃ shot ended, (k.run acts).endShot stop = some (shot, ended) ∧
      shot.timestamp = timestamp ∧
      shot.dose = (if m.live.scaleConnected = true ∧ Binary.zero.lt m.live.scaleWeight = true then
        m.live.scaleWeight else otherDose) ∧
      Summarises shot acts start stop ∧
      ∀ (m' k' : Machine) (otherDose' : Single) (acts' : List Act),
        m'.startShot start timestamp otherDose' = some k' →
        m'.live.dose otherDose' = m.live.dose otherDose →
        (∀ a ∈ acts', a.endsShot = false) →
        weights acts' = weights acts → pressures acts' = pressures acts →
        temperatures acts' = temperatures acts →
        ((k'.run acts').endShot stop).map Prod.fst = some shot := by
  have hbrews := brews_of_startShot hs
  obtain ⟨ended, hended⟩ := (hbrews.run ha).endShot stop
  rw [hbrews.shotRecord_run ha] at hended
  refine ⟨_, ended, hended, rfl, ?_, summarises_summary .., ?_⟩
  · simp only [summary, LiveState.dose, Bool.and_eq_true]
  · intro m' k' otherDose' acts' hs' hdose ha' hweights hpressures htemperatures
    have hbrews' := brews_of_startShot hs'
    rw [hdose] at hbrews'
    obtain ⟨ended', hended'⟩ := (hbrews'.run ha').endShot stop
    rw [hbrews'.shotRecord_run ha'] at hended'
    rw [hended', Option.map_some, Option.some_inj]
    unfold summary
    rw [hweights, hpressures, htemperatures]

theorem shot_is_summary_interleaved :
    let m := initial.run [.observe 5 (.pressure 9), .observe 10 (.scale 18 0 true)]
    let nan : Single := Binary.ofBits 2143289344
    let acts : List Act := [.observe 110 (.pressure nan), .setMode .eco,
      .observe 115 (.pressure 3), .observe 120 (.temperatures 92 130), .setConnected .scale false,
      .observe 150 (.pressure 5), .startShot 160 9 20, .observe 170 (.temperatures nan 130),
      .observe 180 (.pressure 9), .observe 190 (.scale 12 2 true), .setState .steaming,
      .observe 200 (.temperatures 94 130), .observe 210 (.pressure 3),
      .observe 220 (.scale 36 2 true)]
    ∃ k, m.startShot 100 7 16 = some k ∧ (∀ a ∈ acts, a.endsShot = false) ∧
      ∃ shot ended, (k.run acts).endShot 2100 = some (shot, ended) ∧
        Summarises shot acts 100 2100 ∧
        shot = ⟨7, 18, 36, 2000, 50, 18, 9, 93, none⟩ := by
  intro m nan acts
  have hacts : ∀ a ∈ acts, a.endsShot = false := by decide +kernel
  have hs : m.startShot 100 7 16 = some (m.act (.startShot 100 7 16)) := rfl
  obtain ⟨shot, ended, hended, -, -, hsum, -⟩ := shot_is_summary 2100 hs hacts
  refine ⟨_, hs, hacts, shot, ended, hended, hsum, ?_⟩
  have hshot : (((m.act (.startShot 100 7 16)).run acts).endShot 2100).map Prod.fst =
      some ⟨7, 18, 36, 2000, 50, 18, 9, 93, none⟩ := by decide +kernel
  rw [hended] at hshot
  exact Option.some.inj hshot

end Machine

end Espresso
