import Espresso.Proofs.Controller.Dispatch
import Espresso.Proofs.Controller.Usage

namespace Espresso.Controller

open Statistics

def credit (c : Controller) (s : Step) : Nat :=
  match s.call with
  | .tick =>
    if c.machine.live.mode = .standby then 0 else c.usage.inProgress s.readings.uptime / minute
  | _ => 0

def credits (c : Controller) : List Step → List Nat
  | [] => []
  | s :: steps => c.credit s :: (c.after s).credits steps

def startsDay (c : Controller) (s : Step) : Bool :=
  match s.call with
  | .tick => (c.localTime s.readings).any fun time => c.stats.isNewDay (.ofNat time.day)
  | .resetDaily => true
  | _ => false

def lastTickTime (since : Nat) (steps : List Step) : Nat := (tickTimes steps).getLastD since

/-- Steps that leave the count of time in use running: their ticks follow each other from `since` on,
and all of them find the machine in use. -/
structure InUse (c : Controller) (since : Nat) (steps : List Step) : Prop where
  ticks : (since :: tickTimes steps).IsChain (· ≤ ·)
  keeps : ∀ s ∈ steps, s.call ≠ .boot ∧ s.call.operation? ≠ some .factoryReset
  powered : c.Throughout (fun d s => s.call = .tick → d.machine.live.mode ≠ .standby) steps

variable {c : Controller} {r : Readings} {s : Step} {steps : List Step} {since : Nat}

theorem credit_of_tick (ht : s.call = .tick) (hm : c.machine.live.mode ≠ .standby) :
    c.credit s = c.usage.inProgress s.readings.uptime / minute := by
  rw [credit, ht]
  exact if_neg hm

theorem credit_of_standby (ht : s.call = .tick) (hm : c.machine.live.mode = .standby) :
    c.credit s = 0 := by
  rw [credit, ht]
  exact if_pos hm

theorem credit_of_ne_tick (ht : s.call ≠ .tick) : c.credit s = 0 := by
  unfold credit
  split
  · next h => exact absurd h ht
  · rfl

theorem lastTickTime_of_tick (ht : s.call = .tick) :
    lastTickTime since (s :: steps) = lastTickTime s.readings.uptime steps := by
  rw [lastTickTime, tickTimes_of_tick ht, List.getLastD_cons]
  rfl

theorem lastTickTime_of_ne_tick (ht : s.call ≠ .tick) :
    lastTickTime since (s :: steps) = lastTickTime since steps := by
  rw [lastTickTime, tickTimes_of_ne_tick ht]
  rfl

theorem InUse.of_tick (h : c.InUse since (s :: steps)) (ht : s.call = .tick) :
    since ≤ s.readings.uptime ∧ c.machine.live.mode ≠ .standby ∧
      (c.after s).InUse s.readings.uptime steps := by
  have hticks := h.ticks
  rw [tickTimes_of_tick ht, List.isChain_cons_cons] at hticks
  exact ⟨hticks.1, h.powered.1 ht, hticks.2, fun t hm => h.keeps t (List.mem_cons_of_mem _ hm),
    h.powered.2⟩

theorem InUse.of_ne_tick (h : c.InUse since (s :: steps)) (ht : s.call ≠ .tick) :
    (c.after s).InUse since steps := by
  have hticks := h.ticks
  rw [tickTimes_of_ne_tick ht] at hticks
  exact ⟨hticks, fun t hm => h.keeps t (List.mem_cons_of_mem _ hm), h.powered.2⟩

theorem InUse.le_lastTickTime (h : c.InUse since steps) : since ≤ lastTickTime since steps := by
  induction steps generalizing c since with
  | nil => exact Nat.le_refl since
  | cons s steps ih =>
    by_cases ht : s.call = .tick
    · obtain ⟨hle, -, hrest⟩ := h.of_tick ht
      rw [lastTickTime_of_tick ht]
      exact Nat.le_trans hle (ih hrest)
    · rw [lastTickTime_of_ne_tick ht]
      exact ih (h.of_ne_tick ht)

theorem count_creditOnTime (c : Controller) (now : Nat) {k : Counter}
    (hk : k = .onMinutes ∨ k = .onMinutesToday) :
    (((c.creditOnTime now).stats.count k).toNat =
      min ((c.stats.count k).toNat +
        if c.machine.live.mode = .standby then 0 else c.usage.inProgress now / minute)
        greatestCount) ∧ (c.creditOnTime now).stats.day = c.stats.day := by
  have hkept : (c.stats.count k).toNat = min ((c.stats.count k).toNat + 0) greatestCount :=
    (Nat.min_eq_left (toNat_le_greatestCount _)).symm
  have hdue : c.onTimeCarry + (now - c.lastTick) = c.usage.inProgress now := rfl
  rw [creditOnTime]
  split
  · exact ⟨hkept, rfl⟩
  · dsimp only
    rw [hdue]
    split
    · next hlt =>
      rw [Nat.div_eq_of_lt hlt]
      exact ⟨hkept, rfl⟩
    · have hgain (minutes : UInt32) : k.gain (.onMinutes minutes) = minutes.toNat := if_pos hk
      refine ⟨?_, rfl⟩
      refine (toNat_count_change c.stats (.onMinutes _) k).trans ?_
      rw [if_neg (by exact Bool.false_ne_true), hgain, toNat_saturate]
      generalize c.usage.inProgress now / minute = minutes
      omega

theorem stats_tick (c : Controller) (r : Readings) : (c.tick r).stats =
    let credited := (({ c with machine := c.machine.setUptime r.uptime } : Controller).creditOnTime
      r.uptime).stats
    (c.localTime r).elim credited fun time => credited.rollDay (.ofNat time.day) := by
  have hcheck (d : Controller) : (d.checkSchedule r).stats = d.stats := by
    obtain ⟨engine, lastScheduleCheck, entries, h⟩ := d.checkSchedule_frame r
    rw [h]
  have hroll (d : Controller) : (d.rollDay r).stats =
      (d.localTime r).elim d.stats fun time => d.stats.rollDay (.ofNat time.day) := by
    unfold rollDay
    split
    · next h => rw [h]; rfl
    · next h =>
      rw [h]
      dsimp only
      split <;> rfl
  obtain ⟨_, h₁⟩ := ({ c with machine := c.machine.setUptime r.uptime } :
    Controller).creditOnTime_frame r.uptime
  obtain ⟨_, _, _, h₂⟩ := (({ c with machine := c.machine.setUptime r.uptime } :
    Controller).creditOnTime r.uptime).serviceStats_frame r.uptime
  obtain ⟨_, _, _, h₃⟩ := ((({ c with machine := c.machine.setUptime r.uptime } :
    Controller).creditOnTime r.uptime).serviceStats r.uptime).serviceHistory_frame r
  have hlocal : (((({ c with machine := c.machine.setUptime r.uptime } : Controller).creditOnTime
      r.uptime).serviceStats r.uptime).serviceHistory r).localTime r = c.localTime r := by
    rw [h₃, h₂]
    rcases h₁ with h₁ | ⟨_, h₁⟩ <;> rw [h₁] <;> rfl
  rw [tick, hcheck, hroll, hlocal, h₃, h₂]

theorem count_tick (c : Controller) (ht : s.call = .tick) {k : Counter}
    (hk : k = .onMinutes ∨ k = .onMinutesToday) :
    ((c.tick s.readings).stats.count k).toNat =
      if k.isDaily && c.startsDay s then 0
      else min ((c.stats.count k).toNat + c.credit s) greatestCount := by
  obtain ⟨hcount, hday⟩ := count_creditOnTime
    ({ c with machine := c.machine.setUptime s.readings.uptime } : Controller)
    s.readings.uptime hk
  have hcredit : c.credit s = if c.machine.live.mode = .standby then 0
      else c.usage.inProgress s.readings.uptime / minute := by
    rw [credit, ht]
  have hstarts : c.startsDay s =
      (c.localTime s.readings).any fun time => c.stats.isNewDay (.ofNat time.day) := by
    rw [startsDay, ht]
  rw [stats_tick, hcredit, hstarts]
  cases c.localTime s.readings with
  | none =>
    rw [Option.any_none, Bool.and_false]
    exact hcount
  | some time =>
    have hnew : (({ c with machine := c.machine.setUptime s.readings.uptime } :
        Controller).creditOnTime s.readings.uptime).stats.isNewDay (.ofNat time.day) =
        c.stats.isNewDay (.ofNat time.day) := by
      rw [isNewDay, isNewDay, hday]
    dsimp only [Option.elim_some]
    rw [Option.any_some, count_rollDay, hnew]
    split
    · rfl
    · exact hcount

theorem count_of_clocked {d : Controller} (h : d.clocked = c.clocked) {k : Counter}
    (hk : k = .onMinutes ∨ k = .onMinutesToday) : d.stats.count k = c.stats.count k := by
  rcases hk with rfl | rfl
  · exact congrArg (fun p => p.1.total) h
  · exact congrArg Prod.snd h

theorem call_cases (c : Controller) (r : Readings) {q : Call} (ht : q ≠ .tick) (hb : q ≠ .boot)
    (hf : q.operation? ≠ some .factoryReset) :
    q ≠ .resetDaily ∧ (c.call r q).2.clocked = c.clocked ∨
      q = .resetDaily ∧ (c.call r q).2.clocked = (c.usage, 0) := by
  cases q with
  | command x =>
    refine .inl ⟨nofun, ?_⟩
    have hx : x ≠ .factoryReset := fun h => hf (congrArg some h)
    show (c.handle r x).2.clocked = c.clocked
    unfold handle
    split
    · exact clocked_perform c r hx
    · exact clocked_perform (c.resetIdle r) r hx
  | direct x => exact .inl ⟨nofun, clocked_perform c r fun h => hf (congrArg some h)⟩
  | resetDaily => exact .inr ⟨rfl, rfl⟩
  | boot => exact absurd rfl hb
  | tick => exact absurd rfl ht
  | _ => exact .inl ⟨nofun, (sparesBooks_call c r rfl).clocked_eq⟩

theorem startsDay_of_ne_tick (ht : s.call ≠ .tick) :
    c.startsDay s = true ↔ s.call = .resetDaily := by
  unfold startsDay
  split
  · next h => exact absurd h ht
  · next h => exact iff_of_true rfl h
  · next h => exact iff_of_false Bool.false_ne_true h

theorem count_after (c : Controller) (hb : s.call ≠ .boot)
    (hf : s.call.operation? ≠ some .factoryReset) {k : Counter}
    (hk : k = .onMinutes ∨ k = .onMinutesToday) :
    (((c.after s).stats.count k).toNat) =
      if k.isDaily && c.startsDay s then 0
      else min ((c.stats.count k).toNat + c.credit s) greatestCount := by
  by_cases ht : s.call = .tick
  · have h := count_tick (c.facing s) ht hk
    rw [after, ht]
    exact h
  · rw [credit_of_ne_tick ht, Nat.add_zero, Nat.min_eq_left (toNat_le_greatestCount _), after]
    rcases call_cases (c.facing s) s.readings ht hb hf with ⟨hn, hc⟩ | ⟨hr, hc⟩
    · have hs : c.startsDay s = false := by
        rw [← Bool.not_eq_true, startsDay_of_ne_tick ht]
        exact hn
      rw [hs, Bool.and_false, count_of_clocked hc hk]
      rfl
    · rw [(startsDay_of_ne_tick ht).mpr hr, Bool.and_true]
      rcases hk with rfl | rfl
      · exact congrArg (fun p => p.1.total.toNat) hc
      · exact congrArg (fun p => p.2.toNat) hc

theorem lastTick_after_tick (ht : s.call = .tick) : (c.after s).lastTick = s.readings.uptime ∧
    (c.machine.live.mode = .standby → (c.after s).onTimeCarry = 0) ∧
    (c.machine.live.mode ≠ .standby →
      (c.after s).onTimeCarry = c.usage.inProgress s.readings.uptime % minute) := by
  have hstep := c.change_after s
  have hseen : (c.after s).lastTick = (c.after s).usage.seen := rfl
  have hcarry : (c.after s).onTimeCarry = (c.after s).usage.carry := rfl
  rw [hseen, hcarry]
  generalize (c.after s).usage = u at hstep
  cases hstep with
  | kept hq => exact absurd ht hq
  | reset hq =>
    rw [ht] at hq
    cases hq
  | booted total hq =>
    rw [ht] at hq
    cases hq
  | idled _ hm => exact ⟨rfl, fun _ => rfl, fun h => absurd hm h⟩
  | counted total _ hm => exact ⟨rfl, fun h => absurd h hm, fun _ => rfl⟩

theorem usage_after_of_ne_tick (ht : s.call ≠ .tick) (hb : s.call ≠ .boot) :
    (c.after s).lastTick = c.lastTick ∧ (c.after s).onTimeCarry = c.onTimeCarry := by
  have hstep := c.change_after s
  have hseen : (c.after s).lastTick = (c.after s).usage.seen := rfl
  have hcarry : (c.after s).onTimeCarry = (c.after s).usage.carry := rfl
  rw [hseen, hcarry]
  generalize (c.after s).usage = u at hstep
  cases hstep with
  | kept => exact ⟨rfl, rfl⟩
  | reset => exact ⟨rfl, rfl⟩
  | booted total hq => exact absurd hq hb
  | idled hq => exact absurd hq ht
  | counted total hq => exact absurd hq ht

theorem onTimeCarry_run (c : Controller) (r : Readings) (steps : List Step) :
    ((c.boot r).run steps).onTimeCarry < minute := by
  refine run_induction (P := fun d => d.onTimeCarry < minute) ?_ ?_
  · show 0 < minute
    decide
  · intro d s _ hd
    have hstep := d.change_after s
    have hcarry : (d.after s).onTimeCarry = (d.after s).usage.carry := rfl
    rw [hcarry]
    generalize (d.after s).usage = u at hstep
    cases hstep with
    | kept => exact hd
    | reset => exact hd
    | booted => exact Nat.zero_lt_of_lt hd
    | idled => exact Nat.zero_lt_of_lt hd
    | counted => exact Nat.mod_lt _ (Nat.zero_lt_of_lt hd)

theorem credits_run (h : c.InUse since steps) (hl : c.lastTick = since)
    (hc : c.onTimeCarry < minute) :
    (c.credits steps).sum =
        (c.onTimeCarry + (lastTickTime since steps - since)) / minute ∧
      (c.run steps).onTimeCarry =
        (c.onTimeCarry + (lastTickTime since steps - since)) % minute := by
  induction steps generalizing c since with
  | nil => simp [lastTickTime, tickTimes, credits, run_nil, Nat.div_eq_of_lt hc, Nat.mod_eq_of_lt hc]
  | cons s steps ih =>
    by_cases ht : s.call = .tick
    · obtain ⟨hle, hm, hrest⟩ := h.of_tick ht
      obtain ⟨hlast, -, hcarry⟩ := c.lastTick_after_tick ht
      have hcarry := hcarry hm
      have hlt : (c.after s).onTimeCarry < minute := by
        rw [hcarry]
        exact Nat.mod_lt _ (by decide)
      obtain ⟨hsum, hrun⟩ := ih hrest hlast hlt
      have hprogress : c.usage.inProgress s.readings.uptime =
          c.onTimeCarry + (s.readings.uptime - since) := by
        rw [← hl]
        rfl
      have hend := hrest.le_lastTickTime
      -- What is left over of the time until this tick goes into the time after it.
      have htime : c.onTimeCarry + (lastTickTime s.readings.uptime steps - since) =
          minute * (c.usage.inProgress s.readings.uptime / minute) +
            ((c.after s).onTimeCarry +
              (lastTickTime s.readings.uptime steps - s.readings.uptime)) := by
        have hdiv := Nat.div_add_mod (c.usage.inProgress s.readings.uptime) minute
        omega
      rw [lastTickTime_of_tick ht, htime, credits, List.sum_cons, credit_of_tick ht hm, hsum,
        run_cons, hrun, Nat.mul_add_div (by decide), Nat.mul_add_mod]
      exact ⟨rfl, rfl⟩
    · obtain ⟨hlast, hcarry⟩ := c.usage_after_of_ne_tick ht (h.keeps s (List.mem_cons_self ..)).1
      obtain ⟨hsum, hrun⟩ := ih (h.of_ne_tick ht) (hlast.trans hl) (hcarry ▸ hc)
      rw [hcarry] at hsum hrun
      rw [lastTickTime_of_ne_tick ht, credits, List.sum_cons, credit_of_ne_tick ht, Nat.zero_add]
      exact ⟨hsum, hrun⟩

theorem count_run {k : Counter} (hk : k = .onMinutes ∨ k = .onMinutesToday)
    (hq : ∀ s ∈ steps, s.call ≠ .boot ∧ s.call.operation? ≠ some .factoryReset)
    (hd : c.Throughout (fun d s => (k.isDaily && d.startsDay s) = false) steps) :
    ((c.run steps).stats.count k).toNat =
      min ((c.stats.count k).toNat + (c.credits steps).sum) greatestCount := by
  induction steps generalizing c with
  | nil => exact (Nat.min_eq_left (toNat_le_greatestCount _)).symm
  | cons s steps ih =>
    obtain ⟨hb, hf⟩ := hq s (List.mem_cons_self ..)
    have hstep := c.count_after hb hf hk
    rw [hd.1, if_neg Bool.false_ne_true] at hstep
    rw [run_cons, ih (fun t ht => hq t (List.mem_cons_of_mem _ ht)) hd.2, hstep, credits,
      List.sum_cons]
    omega

/-- While the machine stays in use, ticks count the minutes of all the time that passes and keep what
is left over of it, however many ticks there are. What they count goes into both counts, of which
that of the day begins anew with every day. -/
theorem ticks_count_all_time (c₀ : Controller) (r : Readings) (before : List Step) :
    let b := (c₀.boot r).run before
    b.onTimeCarry < minute ∧
    (∀ s : Step, s.call ≠ .boot → s.call.operation? ≠ some .factoryReset →
      (b.after s).stats.totalOnMinutes.toNat =
        min (b.stats.totalOnMinutes.toNat + b.credit s) greatestCount ∧
      (b.after s).stats.onMinutesToday.toNat =
        if b.startsDay s then 0
        else min (b.stats.onMinutesToday.toNat + b.credit s) greatestCount) ∧
    ∀ s : Step, s.call = .tick →
      let c := b.after s
      let since := s.readings.uptime
      (b.machine.live.mode = .standby → b.credit s = 0 ∧ c.onTimeCarry = 0) ∧
      (∀ steps, c.InUse since steps →
        let time := c.onTimeCarry + (lastTickTime since steps - since)
        (c.credits steps).sum = time / minute ∧
        (c.run steps).onTimeCarry = time % minute ∧
        (c.run steps).stats.totalOnMinutes.toNat =
          min (c.stats.totalOnMinutes.toNat + time / minute) greatestCount ∧
        (c.Throughout (fun d t => d.startsDay t = false) steps →
          (c.run steps).stats.onMinutesToday.toNat =
            min (c.stats.onMinutesToday.toNat + time / minute) greatestCount)) ∧
      ∀ steps steps', c.InUse since steps → c.InUse since steps' →
        lastTickTime since steps = lastTickTime since steps' →
        (c.credits steps).sum = (c.credits steps').sum ∧
        (c.run steps).onTimeCarry = (c.run steps').onTimeCarry ∧
        (c.run steps).stats.totalOnMinutes = (c.run steps').stats.totalOnMinutes := by
  intro b
  have hlaw (s : Step) (hb : s.call ≠ .boot) (hf : s.call.operation? ≠ some .factoryReset) :=
    And.intro (b.count_after hb hf (k := .onMinutes) (.inl rfl))
      (b.count_after hb hf (k := .onMinutesToday) (.inr rfl))
  refine ⟨c₀.onTimeCarry_run r before, hlaw, ?_⟩
  intro s hs c since
  obtain ⟨hlast, hidle, -⟩ := b.lastTick_after_tick hs
  have hcarry : c.onTimeCarry < minute := by
    have h := c₀.onTimeCarry_run r (before ++ [s])
    rwa [run_append] at h
  have hcredits {steps : List Step} (h : c.InUse since steps) := credits_run h hlast hcarry
  have htotal {steps : List Step} (h : c.InUse since steps) :
      (c.run steps).stats.totalOnMinutes.toNat = min (c.stats.totalOnMinutes.toNat +
        (c.onTimeCarry + (lastTickTime since steps - since)) / minute) greatestCount := by
    rw [← (hcredits h).1]
    exact count_run (k := .onMinutes) (.inl rfl) h.keeps (throughout_true.mono fun _ _ _ => rfl)
  refine ⟨fun hm => ⟨credit_of_standby hs hm, hidle hm⟩, ?_, ?_⟩
  · intro steps h time
    refine ⟨(hcredits h).1, (hcredits h).2, htotal h, ?_⟩
    intro hday
    rw [← (hcredits h).1]
    exact count_run (k := .onMinutesToday) (.inr rfl) h.keeps hday
  · intro steps steps' h h' he
    obtain ⟨hsum, hrun⟩ := hcredits h
    obtain ⟨hsum', hrun'⟩ := hcredits h'
    have htotals := (htotal h).trans (he ▸ (htotal h').symm)
    exact ⟨hsum.trans (he ▸ hsum'.symm), hrun.trans (he ▸ hrun'.symm), UInt32.toNat_inj.mp htotals⟩

theorem ticks_count_all_time_once :
    let tick (uptime : Nat) : Step := ⟨⟨uptime, none, 0⟩, fun _ => none, .tick⟩
    let setMode (uptime : Nat) (mode : MachineMode) : Step :=
      ⟨⟨uptime, none, 0⟩, fun _ => none, .command (.setMode mode)⟩
    let start : List Step := [setMode 0 .on]
    let first := tick 30000
    let c := (((blank default (.reliable .empty)).boot ⟨0, none, 0⟩).run start).after first
    let steps := [tick 65000, tick 65000, setMode 70000 .eco, tick 250000]
    c.InUse first.readings.uptime steps ∧ c.InUse first.readings.uptime [tick 250000] ∧
      c.credits steps = [1, 0, 0, 3] ∧ (c.run steps).onTimeCarry = 10000 ∧
      (c.credits steps).sum = (c.credits [tick 250000]).sum ∧
      (c.run steps).onTimeCarry = (c.run [tick 250000]).onTimeCarry ∧
      (c.run steps).stats.totalOnMinutes = (c.run [tick 250000]).stats.totalOnMinutes := by
  intro tick setMode start first c steps
  have hsteps : c.InUse first.readings.uptime steps := by
    refine ⟨by simp [steps, first, tick, setMode, tickTimes, Call.isTick], ?_, ?_⟩
    · simp [steps, tick, setMode, Call.operation?]
    · have hmode : (setMode 70000 .eco).call ≠ .tick := by simp [setMode]
      exact ⟨fun _ => by decide +kernel, fun _ => by decide +kernel, fun h => absurd h hmode,
        fun _ => by decide +kernel, trivial⟩
  have hsingle : c.InUse first.readings.uptime [tick 250000] := by
    refine ⟨by simp [first, tick, tickTimes, Call.isTick], ?_, ?_⟩
    · simp [tick, Call.operation?]
    · exact ⟨fun _ => by decide +kernel, trivial⟩
  have hlast : lastTickTime first.readings.uptime steps =
      lastTickTime first.readings.uptime [tick 250000] := by
    simp [lastTickTime, steps, tick, setMode, tickTimes, Call.isTick]
  have hc : c = (((blank default (.reliable .empty)).boot ⟨0, none, 0⟩).run start).after first := rfl
  refine ⟨hsteps, hsingle, by decide +kernel, by decide +kernel, ?_⟩
  rw [hc]
  obtain ⟨-, -, h⟩ := ticks_count_all_time (blank default (.reliable .empty)) ⟨0, none, 0⟩ start
  exact (h first rfl).2.2 steps [tick 250000] hsteps hsingle hlast

end Espresso.Controller
