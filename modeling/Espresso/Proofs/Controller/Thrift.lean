import Espresso.Proofs.Controller.Ledger
import Espresso.Proofs.Controller.Watch

namespace Espresso

namespace Controller

def statsAttempts (c : Controller) (s : Step) : List Attempt :=
  (c.after s).medium.writes Statistics.address

def saveTimes : Controller → List Step → List Nat
  | _, [] => []
  | c, s :: steps =>
    (c.statsAttempts s).map (fun _ => s.readings.uptime) ++ (c.after s).saveTimes steps

def credited (c : Controller) (s : Step) : Ledger :=
  { (c.creditOnTime s.readings.uptime).ledger with medium := (c.facing s).medium }

variable {c : Controller} {s t : Step} {steps first second : List Step} {now : Nat}

theorem saveTimes_append :
    c.saveTimes (first ++ second) = c.saveTimes first ++ (c.run first).saveTimes second := by
  induction first generalizing c with
  | nil => rfl
  | cons s first ih => rw [List.cons_append, saveTimes, saveTimes, ih, List.append_assoc, run_cons]

theorem statsAttempts_ne_nil (h : c.statsAttempts s ≠ []) :
    s.call = .tick ∨ ∃ kind, s.call.operation? = some (.maintenance kind) :=
  (entry_after c s).writes_ne h

theorem ledger_creditOnTime_facing (c : Controller) (s : Step) :
    (({ c.facing s with machine := (c.facing s).machine.setUptime s.readings.uptime } :
      Controller).creditOnTime s.readings.uptime).ledger = c.credited s := by
  rw [credited, creditOnTime, creditOnTime]
  by_cases hm : c.machine.live.mode = .standby
  · rw [if_pos hm]
    exact congrArg ledger (if_pos hm)
  · rw [if_neg hm]
    refine (congrArg ledger (if_neg hm)).trans ?_
    dsimp only
    by_cases hc : c.onTimeCarry + (s.readings.uptime - c.lastTick) < minute
    · rw [if_pos hc]
      exact congrArg ledger (if_pos hc)
    · rw [if_neg hc]
      exact congrArg ledger (if_neg hc)

theorem statsAttempts_of_tick (ht : s.call = .tick) :
    c.statsAttempts s = ((c.credited s).service s.readings.uptime).writes := by
  have h := (marks_tick (c.facing s) s.readings).writes
  rw [ledger_creditOnTime_facing] at h
  rw [← h, statsAttempts, after, ht]
  rfl

theorem statsAttempts_of_due (ht : s.call = .tick)
    (hd : (c.credited s).isDue s.readings.uptime = true) : ∃ failure, c.statsAttempts s =
      [⟨.write Statistics.address (c.creditOnTime s.readings.uptime).stats.pack, failure⟩] := by
  rw [statsAttempts_of_tick ht, Ledger.service_of_due hd]
  exact Ledger.writes_save ..

theorem statsAttempts_of_not_due (ht : s.call = .tick)
    (hd : (c.credited s).isDue s.readings.uptime = false) : c.statsAttempts s = [] := by
  rw [statsAttempts_of_tick ht, Ledger.writes_service_of_not_due hd]
  rfl

theorem isDue_credited : (c.credited s).isDue s.readings.uptime =
    ((c.creditOnTime s.readings.uptime).statsDirty &&
      c.tuning.statsSaveInterval.toNat ≤ s.readings.uptime - c.lastStatsSave) := by
  have hm := marks_creditOnTime c s.readings.uptime
  show (_ && decide ((c.creditOnTime s.readings.uptime).ledger.tuning.statsSaveInterval.toNat ≤
    _ - (c.creditOnTime s.readings.uptime).ledger.lastSave)) = _
  rw [hm.tuning, hm.lastSave]
  rfl

theorem lastStatsSave_after (hc : c.lastStatsSave ≤ s.readings.uptime) :
    c.lastStatsSave ≤ (c.after s).lastStatsSave ∧
      (c.after s).lastStatsSave ≤ s.readings.uptime ∧
      (c.statsAttempts s = [] ∨ (c.after s).lastStatsSave = s.readings.uptime) :=
  (entry_after c s).lastSave hc

theorem lastStatsSave_run (hf : Forward now steps) (hc : c.lastStatsSave ≤ now) :
    c.lastStatsSave ≤ (c.run steps).lastStatsSave ∧
      (c.run steps).lastStatsSave ≤ lastUptime now steps ∧
      ∀ v ∈ c.saveTimes steps, v ≤ (c.run steps).lastStatsSave := by
  induction steps generalizing c now with
  | nil => exact ⟨Nat.le_refl _, hc, nofun⟩
  | cons s steps ih =>
    obtain ⟨hle, hnow, hattempts⟩ := lastStatsSave_after (Nat.le_trans hc hf.1)
    obtain ⟨hle', hnow', htimes⟩ := ih hf.2 hnow
    refine ⟨Nat.le_trans hle hle', hnow', ?_⟩
    intro v hv
    rcases List.mem_append.mp hv with hv | hv
    · obtain ⟨a, ha, rfl⟩ := List.mem_map.mp hv
      rcases hattempts with hnil | hsave
      · rw [hnil] at ha
        cases ha
      · rw [hsave] at hle'
        exact hle'
    · exact htimes v hv

theorem lastStatsSave_of_dirty
    (hd : c.Throughout (fun d _ => d.statsDirty = true) (steps ++ [t]))
    (hn : c.saveTimes steps = []) :
    (c.run steps).lastStatsSave = c.lastStatsSave ∧ (c.run steps).statsDirty = true := by
  induction steps generalizing c with
  | nil => exact ⟨rfl, hd.1⟩
  | cons s steps ih =>
    obtain ⟨hattempts, hrest⟩ := List.append_eq_nil_iff.mp hn
    have hmark : (c.after s).statsDirty = true := by
      cases steps with
      | nil => exact hd.2.1
      | cons s' steps => exact hd.2.1
    have hsave : (c.after s).lastStatsSave = c.lastStatsSave :=
      (entry_after c s).lastSave_of_dirty hd.1 hmark (List.map_eq_nil_iff.mp hattempts)
    obtain ⟨hlast, hdirty⟩ := ih hd.2 hrest
    exact ⟨hlast.trans hsave, hdirty⟩

theorem statsAttempts_of_overdue (ht : t.call = .tick) (hd : c.statsDirty = true)
    (hle : c.lastStatsSave + c.tuning.statsSaveInterval.toNat ≤ t.readings.uptime) :
    c.statsAttempts t ≠ [] := by
  have hcredit : (c.creditOnTime t.readings.uptime).statsDirty = true :=
    (marks_creditOnTime c t.readings.uptime).dirty hd
  have hdue : (c.credited t).isDue t.readings.uptime = true := by
    rw [isDue_credited, hcredit, Bool.true_and]
    exact decide_eq_true (Nat.le_sub_of_add_le (Nat.add_comm _ _ ▸ hle))
  obtain ⟨failure, h⟩ := statsAttempts_of_due ht hdue
  rw [h]
  exact List.cons_ne_nil _ _

theorem saveTimes_of_overdue (ht : t.call = .tick)
    (hd : c.Throughout (fun d _ => d.statsDirty = true) (steps ++ [t]))
    (hle : c.lastStatsSave + c.tuning.statsSaveInterval.toNat ≤ t.readings.uptime) :
    c.saveTimes (steps ++ [t]) ≠ [] := by
  intro hn
  rw [saveTimes_append] at hn
  obtain ⟨hsteps, htick⟩ := List.append_eq_nil_iff.mp hn
  obtain ⟨hlast, hdirty⟩ := lastStatsSave_of_dirty hd hsteps
  rw [← hlast, ← tuning_run c steps] at hle
  have hattempts := (List.append_eq_nil_iff.mp htick).1
  exact statsAttempts_of_overdue ht hdirty hle (List.map_eq_nil_iff.mp hattempts)

theorem statsAttempts_after_interval (ht : t.call = .tick) (hf : Forward now (steps ++ t :: second))
    (hc : c.lastStatsSave ≤ now) :
    let d := c.run steps
    d.statsAttempts t = [] ∨
      (d.creditOnTime t.readings.uptime).statsDirty = true ∧
      (∃ failure, d.statsAttempts t = [⟨.write Statistics.address
        (d.creditOnTime t.readings.uptime).stats.pack, failure⟩]) ∧
      ∀ v ∈ c.saveTimes steps, v + c.tuning.statsSaveInterval.toNat ≤ t.readings.uptime := by
  intro d
  obtain ⟨hsteps, hnow, -⟩ := forward_append.mp hf
  obtain ⟨-, hlast, htimes⟩ := lastStatsSave_run hsteps hc
  have hlast : d.lastStatsSave ≤ t.readings.uptime := Nat.le_trans hlast hnow
  cases hdue : (d.credited t).isDue t.readings.uptime with
  | false => exact .inl (statsAttempts_of_not_due ht hdue)
  | true =>
    have hattempts := statsAttempts_of_due ht hdue
    rw [isDue_credited, Bool.and_eq_true, decide_eq_true_eq, tuning_run] at hdue
    refine .inr ⟨hdue.1, hattempts, fun v hv => ?_⟩
    have hv : v ≤ d.lastStatsSave := htimes v hv
    omega

theorem balanced_facing (h : c.ledger.Balanced)
    (hr : ∀ a, s.refuses (.read a) = none) (he : ∀ space, s.refuses (.erase space) = none) :
    (c.facing s).ledger.Balanced := by
  have hserves : (c.facing s).medium.Serves := ⟨h.serves.available, hr, he⟩
  refine ⟨hserves, fun hd => ?_⟩
  show (Statistics.load (c.facing s).medium).lasting = _
  rw [Statistics.load_congr (h.serves.read_congr hserves rfl)]
  exact h.stored hd

theorem balanced_run (hm : c.medium.Serves) (r : Readings)
    (hs : ∀ s ∈ steps,
      (∀ a, s.refuses (.read a) = none) ∧ ∀ space, s.refuses (.erase space) = none) :
    ((c.boot r).run steps).ledger.Balanced := by
  apply run_induction (P := fun d => d.ledger.Balanced)
  · exact ⟨hm, fun _ => rfl⟩
  · intro d s hmem hd
    obtain ⟨hr, he⟩ := hs s hmem
    exact (balanced_facing hd hr he).entry (entry_after d s)

/-- How the statistics are kept, whatever writes are refused. Without a mark they are those that a
fresh start would load, but for the session. Only ticks and maintenances try to write them. A tick
tries once, and only if they are marked by then and the last attempt was an interval ago. If they
have been marked for as long as the interval, an attempt has been made since. -/
theorem stats_are_stored_sparingly {c : Controller} (hm : c.medium.Serves) (r : Readings)
    {steps : List Step}
    (hs : ∀ s ∈ steps,
      (∀ a, s.refuses (.read a) = none) ∧ ∀ space, s.refuses (.erase space) = none)
    (hf : Forward r.uptime steps) :
    let b := c.boot r
    ((b.run steps).statsDirty = false →
      (Statistics.load (b.run steps).medium).lasting = (b.run steps).stats.lasting) ∧
    ∀ pre s rest, steps = pre ++ s :: rest →
      let d := b.run pre
      (d.statsAttempts s ≠ [] →
        s.call = .tick ∨ ∃ kind, s.call.operation? = some (.maintenance kind)) ∧
      (s.call = .tick →
        (d.statsAttempts s = [] ∨
          (d.creditOnTime s.readings.uptime).statsDirty = true ∧
          (∃ failure, d.statsAttempts s = [⟨.write Statistics.address
            (d.creditOnTime s.readings.uptime).stats.pack, failure⟩]) ∧
          ∀ v ∈ b.saveTimes pre, v + c.tuning.statsSaveInterval.toNat ≤ s.readings.uptime) ∧
        ∀ older mid, pre = older ++ mid →
          (b.run older).Throughout (fun e _ => e.statsDirty = true) (mid ++ [s]) →
          lastUptime r.uptime older + c.tuning.statsSaveInterval.toNat ≤ s.readings.uptime →
            (b.run older).saveTimes (mid ++ [s]) ≠ []) := by
  intro b
  refine ⟨(balanced_run hm r hs).stored, ?_⟩
  rintro pre s rest rfl d
  refine ⟨statsAttempts_ne_nil, fun ht => ⟨?_, ?_⟩⟩
  · exact statsAttempts_after_interval ht hf (Nat.le_refl _)
  · rintro older mid rfl hd hle
    apply saveTimes_of_overdue ht hd
    rw [List.append_assoc] at hf
    have hlast : (b.run older).lastStatsSave ≤ lastUptime r.uptime older :=
      (lastStatsSave_run (forward_append.mp hf).1 (Nat.le_refl _)).2.1
    rw [tuning_run]
    exact Nat.le_trans (Nat.add_le_add_right hlast _) hle

theorem stats_are_stored_after_refusal :
    let b := (blank default (.reliable .empty)).boot ⟨0, none, 0⟩
    let older : List Step := [
      ⟨⟨0, none, 0⟩, fun _ => none, .command .startShot⟩,
      ⟨⟨25000, none, 0⟩, fun _ => none, .command .endShot⟩]
    let refused : Step := ⟨⟨300000, none, 0⟩, Fault.refusal [⟨.write, "stats", .io⟩], .tick⟩
    let retry : Step := ⟨⟨600000, none, 0⟩, fun _ => none, .tick⟩
    let d := b.run (older ++ [refused, retry])
    (Statistics.load d.medium).lasting = d.stats.lasting ∧
    b.saveTimes (older ++ [refused]) ≠ [] ∧
    (∀ v ∈ b.saveTimes (older ++ [refused]), v + 300000 ≤ 600000) ∧
    (b.run older).saveTimes [refused, retry] ≠ [] := by
  intro b older refused retry d
  obtain ⟨hstored, hsplit⟩ := @stats_are_stored_sparingly (blank default (.reliable .empty))
    ⟨rfl, fun _ => rfl, fun _ => rfl⟩ ⟨0, none, 0⟩ (older ++ [refused, retry])
    (by
      simp only [older, List.forall_mem_append, List.forall_mem_cons, List.not_mem_nil,
        false_imp_iff, implies_true, and_true, true_and]
      exact ⟨⟨fun a => rfl, fun space => rfl⟩, fun a => rfl, fun space => rfl⟩)
    (by simp [Forward, older, refused, retry])
  obtain ⟨-, htick⟩ := hsplit (older ++ [refused]) retry [] rfl
  obtain ⟨hattempts, hoverdue⟩ := htick rfl
  obtain ⟨-, -, htimes⟩ := hattempts.resolve_left (by decide +kernel)
  refine ⟨hstored (by decide +kernel), by decide +kernel, htimes, ?_⟩
  exact hoverdue older [refused] rfl ⟨by decide +kernel, by decide +kernel, trivial⟩
    (by decide +kernel)

end Controller

end Espresso
