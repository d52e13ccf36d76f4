import Espresso.Proofs.Controller.Refusal
import Espresso.Proofs.Statistics.Counters

/-!
Time in use is counted in minutes. What does not make up a minute yet is kept beside the statistics,
where a factory reset does not reach it.
-/

namespace Espresso

structure Usage where
  total : UInt32
  carry : Nat
  seen : Nat

namespace Usage

def inProgress (u : Usage) (now : Nat) : Nat := u.carry + (now - u.seen)

def accounted (u : Usage) (now : Nat) : Nat :=
  u.total.toNat * Controller.minute + u.inProgress now

def Covers (u : Usage) (now spent : Nat) : Prop :=
  u.seen ≤ now ∧ ∃ minutes, u.total.toNat = min minutes greatestCount ∧
    minutes * Controller.minute + u.inProgress now = spent

inductive Change (u : Usage) (r : Readings) (q : Call) (mode : MachineMode) : Usage → Prop
  | kept (hq : q ≠ .tick) : u.Change r q mode u
  | reset (hq : q.operation? = some .factoryReset) : u.Change r q mode { u with total := 0 }
  | booted (total : UInt32) (hq : q = .boot) : u.Change r q mode ⟨total, 0, r.uptime⟩
  | idled (hq : q = .tick) (hm : mode = .standby) : u.Change r q mode ⟨u.total, 0, r.uptime⟩
  | counted (total : UInt32) (hq : q = .tick) (hm : mode ≠ .standby)
    (ht : total.toNat =
      min (u.total.toNat + u.inProgress r.uptime / Controller.minute) greatestCount) :
    u.Change r q mode ⟨total, u.inProgress r.uptime % Controller.minute, r.uptime⟩

variable {u u' : Usage} {r : Readings} {q : Call} {mode : MachineMode} {now spent : Nat}

theorem total_le_of_accounted_le (h : u.accounted now ≤ spent) :
    u.total.toNat ≤ spent / Controller.minute := by
  rw [Nat.le_div_iff_mul_le (by decide)]
  exact Nat.le_trans (Nat.le_add_right ..) h

theorem inProgress_seen (total : UInt32) (carry now : Nat) :
    (⟨total, carry, now⟩ : Usage).inProgress now = carry := by
  rw [inProgress, Nat.sub_self, Nat.add_zero]

theorem accounted_seen (total : UInt32) (carry now : Nat) :
    (⟨total, carry, now⟩ : Usage).accounted now = total.toNat * Controller.minute + carry := by
  rw [accounted, inProgress_seen]

theorem inProgress_le (u : Usage) (now later : Nat) :
    u.inProgress later ≤ u.inProgress now + (later - now) := by
  unfold inProgress
  omega

theorem accounted_reset (u : Usage) (now : Nat) :
    ({ u with total := 0 } : Usage).accounted now = u.inProgress now := by
  rw [accounted, UInt32.toNat_zero, Nat.zero_mul, Nat.zero_add]
  rfl

theorem Change.accounted_le (h : u.Change r q mode u') (hq : q ≠ .boot) (now : Nat) :
    u'.accounted r.uptime ≤ u.accounted now + (r.uptime - now) := by
  have hpassed := u.inProgress_le now r.uptime
  have hnow : u.accounted now = u.total.toNat * Controller.minute + u.inProgress now := rfl
  cases h with
  | kept =>
    unfold accounted
    omega
  | reset =>
    rw [accounted_reset]
    omega
  | booted total hb => exact absurd hb hq
  | idled =>
    rw [accounted_seen]
    omega
  | counted total _ _ ht =>
    have hle : total.toNat * Controller.minute ≤
        (u.total.toNat + u.inProgress r.uptime / Controller.minute) * Controller.minute :=
      Nat.mul_le_mul_right _ (ht ▸ Nat.min_le_left ..)
    have hdiv := Nat.div_add_mod' (u.inProgress r.uptime) Controller.minute
    rw [Nat.add_mul] at hle
    rw [accounted_seen]
    omega

theorem Change.accounted_idled (h : u.Change r .tick .standby u') :
    u'.accounted r.uptime = u.total.toNat * Controller.minute := by
  cases h with
  | kept hq => exact absurd rfl hq
  | reset hq => cases hq
  | booted total hq => cases hq
  | idled => rw [accounted_seen, Nat.add_zero]
  | counted total _ hm => exact absurd rfl hm

theorem Change.covers (h : u.Change r q mode u') (hc : u.Covers now spent)
    (hq : q ≠ .boot ∧ q.operation? ≠ some .factoryReset) (hm : q = .tick → mode ≠ .standby)
    (hnow : now ≤ r.uptime) : u'.Covers r.uptime (spent + (r.uptime - now)) := by
  obtain ⟨hseen, minutes, htotal, rfl⟩ := hc
  have hpassed : u.inProgress r.uptime = u.inProgress now + (r.uptime - now) := by
    unfold inProgress
    omega
  cases h with
  | kept => exact ⟨Nat.le_trans hseen hnow, minutes, htotal, by rw [hpassed, Nat.add_assoc]⟩
  | reset hr => exact absurd hr hq.2
  | booted total hb => exact absurd hb hq.1
  | idled ht hs => exact absurd hs (hm ht)
  | counted total _ _ ht =>
    refine ⟨Nat.le_refl _, minutes + u.inProgress r.uptime / Controller.minute, ?_, ?_⟩
    · rw [ht, htotal]
      generalize u.inProgress r.uptime / Controller.minute = more
      omega
    · have hdiv := Nat.div_add_mod' (u.inProgress r.uptime) Controller.minute
      rw [inProgress_seen, Nat.add_mul]
      omega

theorem Change.total_eq (h : u.Change r .tick mode u') (hm : mode ≠ .standby)
    (hc : u'.Covers r.uptime spent) :
    u'.total.toNat = min (spent / Controller.minute) greatestCount := by
  obtain ⟨-, minutes, htotal, rfl⟩ := hc
  cases h with
  | kept hq => exact absurd rfl hq
  | reset hq => cases hq
  | booted total hq => cases hq
  | idled _ hs => exact absurd hs hm
  | counted total _ _ ht =>
    have hcarry : u.inProgress r.uptime % Controller.minute < Controller.minute :=
      Nat.mod_lt _ (by decide)
    rw [htotal, inProgress_seen, Nat.mul_comm, Nat.mul_add_div (by decide),
      Nat.div_eq_of_lt hcarry, Nat.add_zero]

end Usage

namespace Controller

def usage (c : Controller) : Usage := ⟨c.stats.totalOnMinutes, c.onTimeCarry, c.lastTick⟩

variable {c d : Controller} {r : Readings} {s t : Step} {steps : List Step} {now : Nat}

def clocked (c : Controller) : Usage × UInt32 := (c.usage, c.stats.onMinutesToday)

theorem SparesBooks.clocked_eq (h : c.SparesBooks d) : d.clocked = c.clocked := by
  rw [clocked, usage, h.stats, h.onTimeCarry, h.lastTick]
  rfl

theorem SparesBooks.usage_eq (h : c.SparesBooks d) : d.usage = c.usage :=
  congrArg Prod.fst h.clocked_eq

theorem clocked_persistStats (c : Controller) (now : Nat) :
    (c.persistStats now).clocked = c.clocked := by
  obtain ⟨medium, statsDirty, h⟩ := c.persistStats_frame now
  rw [h]
  rfl

theorem usage_factoryReset (c : Controller) (r : Readings) :
    (c.factoryReset r).2.usage = { c.usage with total := 0 } := by
  show (syncType _).usage = _
  rw [syncType]
  split <;> rfl

theorem clocked_perform (c : Controller) (r : Readings) {x : Command} (hx : x ≠ .factoryReset) :
    (c.perform r x).2.clocked = c.clocked := by
  by_cases hb : x.sparesBooks = true
  · exact (sparesBooks_perform c r hb).clocked_eq
  · cases x with
    | endShot =>
      simp only [perform, endShot, Option.map_map]
      cases c.machine.endShot r.uptime <;> rfl
    | rateShot index rating =>
      simp only [perform, rateShot]
      cases c.history.rate index rating with
      | error e => rfl
      | ok history =>
        obtain ⟨historyDirty, historySaveDue, h⟩ := markHistory_frame { c with history } r
        show (markHistory { c with history } r).clocked = _
        rw [h]
        rfl
    | clearHistory => rfl
    | steamCycle => rfl
    | energy amount =>
      simp only [perform, addEnergy, Statistics.addEnergy]
      split <;> rfl
    | maintenance kind =>
      refine (clocked_persistStats ..).trans ?_
      cases kind <;> rfl
    | factoryReset => exact absurd rfl hx
    | _ => exact absurd rfl hb

theorem usage_perform (c : Controller) (r : Readings) {x : Command} (hx : x ≠ .factoryReset) :
    (c.perform r x).2.usage = c.usage :=
  congrArg Prod.fst (clocked_perform c r hx)

theorem usage_rollDay (c : Controller) (r : Readings) : (c.rollDay r).usage = c.usage := by
  have hroll (day : UInt32) : (c.stats.rollDay day).totalOnMinutes = c.stats.totalOnMinutes :=
    c.stats.count_rollDay day .onMinutes
  obtain h | ⟨day, ⟨-, statsDirty, h⟩ | h⟩ := c.rollDay_frame r <;> rw [h]
  · exact congrArg (fun total => { c.usage with total }) (hroll day)
  · exact congrArg (fun total => { c.usage with total }) (hroll day)

theorem change_creditOnTime (c : Controller) (r : Readings) :
    c.usage.Change r .tick c.machine.live.mode (c.creditOnTime r.uptime).usage := by
  unfold creditOnTime
  split
  · next hm => exact .idled rfl hm
  · next hm =>
    dsimp only
    split
    · next hlt =>
      refine .counted _ rfl hm ?_
      have hnone : c.usage.inProgress r.uptime / minute = 0 := Nat.div_eq_of_lt hlt
      rw [hnone]
      exact (Nat.min_eq_left (toNat_le_greatestCount _)).symm
    · refine .counted _ rfl hm ?_
      show (saturatingAdd c.stats.totalOnMinutes
        (saturate (c.usage.inProgress r.uptime / minute))).toNat =
          min (c.stats.totalOnMinutes.toNat + c.usage.inProgress r.uptime / minute) greatestCount
      rw [toNat_saturatingAdd, toNat_saturate]
      generalize c.usage.inProgress r.uptime / minute = more
      omega

theorem usage_tick (c : Controller) (r : Readings) : (c.tick r).usage =
    (({ c with machine := c.machine.setUptime r.uptime } : Controller).creditOnTime
      r.uptime).usage := by
  have hcheck (d : Controller) : (d.checkSchedule r).usage = d.usage := by
    obtain ⟨engine, lastScheduleCheck, entries, h⟩ := d.checkSchedule_frame r
    rw [h]
    rfl
  have hhistory (d : Controller) : (d.serviceHistory r).usage = d.usage := by
    obtain ⟨medium, historyDirty, historySaveDue, h⟩ := d.serviceHistory_frame r
    rw [h]
    rfl
  have hstats (d : Controller) : (d.serviceStats r.uptime).usage = d.usage := by
    obtain ⟨medium, statsDirty, lastStatsSave, h⟩ := d.serviceStats_frame r.uptime
    rw [h]
    rfl
  rw [tick, hcheck, usage_rollDay, hhistory, hstats]

theorem change_perform (c : Controller) (r : Readings) {q : Call} {x : Command}
    (hq : q.operation? = some x) :
    c.usage.Change r q c.machine.live.mode (c.perform r x).2.usage := by
  by_cases hx : x = .factoryReset
  · subst hx
    rw [(perform_factoryReset c r).1, usage_factoryReset]
    exact .reset hq
  · rw [usage_perform c r hx]
    refine .kept ?_
    rintro rfl
    cases hq

theorem change_call (c : Controller) (r : Readings) (q : Call) :
    c.usage.Change r q c.machine.live.mode (c.call r q).2.usage := by
  cases q with
  | command x =>
    show c.usage.Change r _ _ (c.handle r x).2.usage
    unfold handle
    split
    · exact change_perform c r rfl
    · exact change_perform (c.resetIdle r) r rfl
  | direct x => exact change_perform c r rfl
  | resetDaily => exact .kept nofun
  | boot => exact .booted _ rfl
  | tick =>
    show c.usage.Change r _ _ (c.tick r).usage
    rw [usage_tick]
    exact change_creditOnTime { c with machine := c.machine.setUptime r.uptime } r
  | _ =>
    rw [(sparesBooks_call c r rfl).usage_eq]
    exact .kept nofun

theorem change_after (c : Controller) (s : Step) :
    c.usage.Change s.readings s.call c.machine.live.mode (c.after s).usage :=
  change_call (c.facing s) s.readings s.call

theorem usage_reset (c : Controller) (hs : s.call.operation? = some .factoryReset) :
    (c.after s).usage = { c.usage with total := 0 } := by
  rw [after_of_operation hs, (perform_factoryReset ..).1, usage_factoryReset, attending_eq]
  rfl

theorem accounted_run (hf : Forward now steps) (hb : ∀ t ∈ steps, t.call ≠ .boot) :
    (c.run steps).usage.accounted (lastUptime now steps) ≤
      c.usage.accounted now + (lastUptime now steps - now) := by
  induction steps generalizing c now with
  | nil => exact Nat.le_add_right ..
  | cons s steps ih =>
    have hstep := (c.change_after s).accounted_le (hb s (List.mem_cons_self ..)) now
    have hrun := ih (c := c.after s) hf.2 fun t ht => hb t (List.mem_cons_of_mem _ ht)
    have hnow := hf.1
    have hlast := hf.2.le_lastUptime
    show ((c.after s).run steps).usage.accounted (lastUptime s.readings.uptime steps) ≤
      c.usage.accounted now + (lastUptime s.readings.uptime steps - now)
    omega

theorem covers_run {spent : Nat} (hf : Forward now steps) (hc : c.usage.Covers now spent)
    (hq : ∀ t ∈ steps, t.call ≠ .boot ∧ t.call.operation? ≠ some .factoryReset)
    (hm : c.Throughout (fun d t => t.call = .tick → d.machine.live.mode ≠ .standby) steps) :
    (c.run steps).usage.Covers (lastUptime now steps) (spent + (lastUptime now steps - now)) := by
  induction steps generalizing c now spent with
  | nil =>
    show c.usage.Covers now (spent + (now - now))
    rwa [Nat.sub_self]
  | cons s steps ih =>
    have hstep := (c.change_after s).covers hc (hq s (List.mem_cons_self ..)) hm.1 hf.1
    have hrun := ih hf.2 hstep (fun t ht => hq t (List.mem_cons_of_mem _ ht)) hm.2
    have hnow := hf.1
    have hlast := hf.2.le_lastUptime
    have hspent : spent + (s.readings.uptime - now) +
        (lastUptime s.readings.uptime steps - s.readings.uptime) =
        spent + (lastUptime s.readings.uptime steps - now) := by omega
    rwa [hspent] at hrun

theorem total_run (hc : c.usage.total = 0)
    (hq : ∀ t ∈ steps, t.call ≠ .boot ∧ t.call ≠ .tick) : (c.run steps).usage.total = 0 := by
  refine run_induction (P := fun d => d.usage.total = 0) hc ?_
  intro d t ht hd
  have hstep := d.change_after t
  generalize (d.after t).usage = u at hstep
  cases hstep with
  | kept => exact hd
  | reset => rfl
  | booted total hb => exact absurd hb (hq t ht).1
  | idled ht' => exact absurd ht' (hq t ht).2
  | counted total ht' => exact absurd ht' (hq t ht).2

theorem total_le_of_idle {pre rest : List Step} (hc : c.usage.total = 0)
    (hf : Forward now (pre ++ t :: rest)) (hb : ∀ u ∈ pre ++ t :: rest, u.call ≠ .boot)
    (hpre : ∀ u ∈ pre, u.call ≠ .tick) (ht : t.call = .tick)
    (hm : (c.run pre).machine.live.mode = .standby) :
    (c.run (pre ++ t :: rest)).usage.total.toNat ≤
      (lastUptime now (pre ++ t :: rest) - now) / minute := by
  obtain ⟨hfpre, hft, hfrest⟩ := forward_append.mp hf
  -- Nothing is counted before the tick, and the tick drops what is in progress.
  have hzero : (c.run pre).usage.total = 0 :=
    total_run hc fun u hu => ⟨hb u (List.mem_append_left _ hu), hpre u hu⟩
  have hstep := (c.run pre).change_after t
  rw [ht, hm] at hstep
  have h := accounted_run (c := (c.run pre).after t) hfrest
    fun u hu => hb u (List.mem_append_right _ (List.mem_cons_of_mem _ hu))
  rw [hstep.accounted_idled, hzero, UInt32.toNat_zero, Nat.zero_mul, Nat.zero_add, ← run_cons,
    ← run_append] at h
  have hlast : lastUptime now (pre ++ t :: rest) = lastUptime t.readings.uptime rest :=
    List.foldl_append
  have hnow : now ≤ t.readings.uptime := Nat.le_trans hfpre.le_lastUptime hft
  rw [hlast]
  exact Usage.total_le_of_accounted_le (Nat.le_trans h (Nat.sub_le_sub_left hnow _))

theorem total_eq_of_use {pre : List Step} (hc : c.usage.total = 0) (hseen : c.lastTick ≤ now)
    (hf : Forward now (pre ++ [t])) (ht : t.call = .tick)
    (hq : ∀ u ∈ pre ++ [t], u.call ≠ .boot ∧ u.call.operation? ≠ some .factoryReset)
    (hm : c.Throughout (fun d u => u.call = .tick → d.machine.live.mode ≠ .standby)
      (pre ++ [t])) :
    (c.run (pre ++ [t])).usage.total.toNat =
      min ((lastUptime now (pre ++ [t]) - now + c.usage.inProgress now) / minute)
        greatestCount := by
  have hstart : c.usage.Covers now (c.usage.inProgress now) :=
    ⟨hseen, 0, by rw [hc]; rfl, by rw [Nat.zero_mul, Nat.zero_add]⟩
  have h := covers_run hf hstart hq hm
  have hmode : (c.run pre).machine.live.mode ≠ .standby := (throughout_append.mp hm).2.1 ht
  have hstep := (c.run pre).change_after t
  have hlast : lastUptime now (pre ++ [t]) = t.readings.uptime := List.foldl_append
  have hrun : c.run (pre ++ [t]) = (c.run pre).after t := run_append ..
  rw [hlast, hrun, Nat.add_comm] at h
  rw [ht] at hstep
  rw [hlast, hrun]
  exact hstep.total_eq hmode h

/-- A factory reset forgets the minutes that are counted, but not the time in use that does not make
up a minute yet, nor that since the last tick: it may be counted later. It is not if the next tick
finds the machine in standby. If the machine stays in use, all of it is. -/
theorem reset_keeps_time_in_progress (hs : s.call.operation? = some .factoryReset)
    (hf : Forward s.readings.uptime steps) (hb : ∀ t ∈ steps, t.call ≠ .boot) :
    let since := s.readings.uptime
    let now := lastUptime since steps
    let total := ((c.after s).run steps).stats.totalOnMinutes.toNat
    total ≤ (now - since + c.usage.inProgress since) / minute ∧
    (∀ pre t rest, steps = pre ++ t :: rest → (∀ u ∈ pre, u.call ≠ .tick) → t.call = .tick →
      ((c.after s).run pre).machine.live.mode = .standby → total ≤ (now - since) / minute) ∧
    (∀ pre t, steps = pre ++ [t] → t.call = .tick → c.lastTick ≤ since →
      (∀ u ∈ steps, u.call.operation? ≠ some .factoryReset) →
      (c.after s).Throughout (fun d u => u.call = .tick → d.machine.live.mode ≠ .standby) steps →
      total = min ((now - since + c.usage.inProgress since) / minute) greatestCount) := by
  intro since now total
  have hreset := c.usage_reset hs
  have hzero : (c.after s).usage.total = 0 := by rw [hreset]
  have hprogress : (c.after s).usage.inProgress since = c.usage.inProgress since := by
    rw [hreset]
    rfl
  refine ⟨?_, ?_, ?_⟩
  · have h := accounted_run (c := c.after s) hf hb
    rw [hreset, Usage.accounted_reset, Nat.add_comm] at h
    exact Usage.total_le_of_accounted_le h
  · rintro pre t rest rfl hpre ht hm
    exact total_le_of_idle hzero hf hb hpre ht hm
  · rintro pre t rfl ht hseen hq hm
    have hlast : (c.after s).lastTick = c.lastTick := congrArg Usage.seen hreset
    rw [← hprogress]
    exact total_eq_of_use hzero (hlast ▸ hseen) hf ht (fun u hu => ⟨hb u hu, hq u hu⟩) hm

theorem reset_keeps_forty_seconds :
    let c := ((blank default (.reliable .empty)).boot ⟨0, none, 0⟩).run [
      ⟨⟨0, none, 0⟩, fun _ => none, .command (.setMode .on)⟩,
      ⟨⟨30000, none, 0⟩, fun _ => none, .tick⟩]
    let reset : Step := ⟨⟨40000, none, 0⟩, fun _ => none, .command .factoryReset⟩
    let rest : List Step := [⟨⟨50000, none, 0⟩, fun _ => none, .command (.setMode .eco)⟩,
      ⟨⟨60000, none, 0⟩, fun _ => none, .tick⟩]
    reset.call.operation? = some .factoryReset ∧ Forward reset.readings.uptime rest ∧
      (∀ t ∈ rest, t.call ≠ .boot) ∧ c.usage.inProgress 40000 = 40000 ∧
      ((c.after reset).run rest).stats.totalOnMinutes.toNat = 1 := by
  intro c reset rest
  have hreset : reset.call.operation? = some .factoryReset := rfl
  have hf : Forward reset.readings.uptime rest := by simp [Forward, reset, rest]
  have hb : ∀ t ∈ rest, t.call ≠ .boot := by simp [rest]
  have hp : c.usage.inProgress 40000 = 40000 := by decide +kernel
  refine ⟨hreset, hf, hb, hp, ?_⟩
  have h := (reset_keeps_time_in_progress (c := c) hreset hf hb).2.2 [rest[0]] rest[1] rfl rfl
    (by decide +kernel) (by simp [rest, Call.operation?]) ?_
  · rw [h]
    show min ((60000 - 40000 + c.usage.inProgress 40000) / minute) greatestCount = 1
    rw [hp]
    decide
  · have heco : ((c.after reset).after rest[0]).machine.live.mode ≠ .standby := by decide +kernel
    exact ⟨nofun, fun _ => heco, trivial⟩

theorem minute_from_before_reset :
    let c := ((blank default (.reliable .empty)).boot ⟨0, none, 0⟩).run [
      ⟨⟨0, none, 0⟩, fun _ => none, .command (.setMode .on)⟩,
      ⟨⟨59000, none, 0⟩, fun _ => none, .tick⟩]
    let reset : Step := ⟨⟨59000, none, 0⟩, fun _ => none, .command .factoryReset⟩
    let tick : Step := ⟨⟨60000, none, 0⟩, fun _ => none, .tick⟩
    c.outcome reset = .reply (.ok .done) ∧ Forward reset.readings.uptime [tick] ∧
      ¬((c.after reset).after tick).stats.totalOnMinutes.toNat ≤
        (tick.readings.uptime - reset.readings.uptime) / minute := by
  intro c reset tick
  refine ⟨?_, ?_, ?_⟩
  · rfl
  · simp [Forward, reset, tick]
  · decide +kernel

end Controller

end Espresso
