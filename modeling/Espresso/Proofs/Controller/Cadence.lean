import Espresso.Proofs.Controller.Dispatch

namespace Espresso

def Step.ShowsSince (s : Step) (epoch : Int) : Prop :=
  ∃ unix, s.readings.unix = some unix ∧ (unix : Int) = (epoch + s.readings.uptime) / 1000

namespace Tuning

/-- The interval between looks at the schedule, rounded up to whole ticks. -/
def checkSpacing (t : Tuning) : Nat :=
  (t.scheduleCheckInterval.toNat + t.tickInterval.toNat - 1) / t.tickInterval.toNat *
    t.tickInterval.toNat

variable {t : Tuning}

theorem tickInterval_pos (h : t.validate = .ok ()) : 0 < t.tickInterval.toNat :=
  (validate_eq_ok.mp h).1

theorem scheduleCheckInterval_le (h : t.validate = .ok ()) :
    t.scheduleCheckInterval.toNat ≤ 60000 := (validate_eq_ok.mp h).2.1.2

theorem checkSpacing_eq {n : Nat} (hlo : n * t.tickInterval.toNat < t.scheduleCheckInterval.toNat)
    (hhi : t.scheduleCheckInterval.toNat ≤ (n + 1) * t.tickInterval.toNat) :
    t.checkSpacing = (n + 1) * t.tickInterval.toNat := by
  have hn : (t.scheduleCheckInterval.toNat + t.tickInterval.toNat - 1) / t.tickInterval.toNat =
      n + 1 := by
    apply Nat.div_eq_of_lt_le
    · rw [Nat.add_mul] at hhi ⊢
      omega
    · rw [Nat.add_mul (n + 1)]
      omega
  rw [checkSpacing, hn]

theorem checkSpacing_le_iff (h : 0 < t.tickInterval.toNat) {limit : Nat} :
    t.checkSpacing ≤ limit ↔
      t.scheduleCheckInterval.toNat ≤ limit / t.tickInterval.toNat * t.tickInterval.toNat := by
  rw [checkSpacing, ← Nat.le_div_iff_mul_le h, Nat.div_le_iff_le_mul_add_pred h, Nat.mul_comm]
  omega

theorem le_checkSpacing (h : 0 < t.tickInterval.toNat) :
    t.scheduleCheckInterval.toNat ≤ t.checkSpacing :=
  Nat.le_trans ((checkSpacing_le_iff h).mp (Nat.le_refl _)) (Nat.div_mul_le_self ..)

end Tuning

namespace Controller

def checkTimes (c : Controller) : List Step → List Nat
  | [] => []
  | s :: steps =>
    if c.looks s then s.readings.uptime :: (c.after s).checkTimes steps
    else (c.after s).checkTimes steps

/-- At its tick at uptime `u`, the controller has looked at the schedule at uptime `v` last, some
ticks and less than an interval ago. -/
structure Paced (c : Controller) (v u : Nat) : Prop where
  checked : c.lastScheduleCheck = some v
  ticks : ∃ n, u = v + n * c.tuning.tickInterval.toNat ∧
    n * c.tuning.tickInterval.toNat < c.tuning.scheduleCheckInterval.toNat

structure Spaced (spacing : Nat) (checks ticks : List Nat) : Prop where
  apart : checks.IsChain fun v w => w = v + spacing
  covered : ∀ t ∈ ticks, ∃ w ∈ checks, w ≤ t ∧ t < w + spacing

section

variable {c : Controller} {s : Step} {steps : List Step} {tuning : Tuning}
  {checks ticks : List Nat} {spacing t u v w : Nat}

theorem Spaced.cons_tick (h : Spaced spacing (v :: checks) ticks) (ht : v ≤ t ∧ t < v + spacing) :
    Spaced spacing (v :: checks) (t :: ticks) := by
  refine ⟨h.apart, ?_⟩
  intro t' hmem
  rcases List.mem_cons.mp hmem with rfl | hmem
  · exact ⟨v, List.mem_cons_self .., ht⟩
  · exact h.covered t' hmem

theorem Spaced.cons_check (h : Spaced spacing (w :: checks) ticks) (hw : w = v + spacing) :
    Spaced spacing (v :: w :: checks) ticks := by
  refine ⟨List.isChain_cons_cons.mpr ⟨hw, h.apart⟩, ?_⟩
  intro t ht
  obtain ⟨w', hmem, hw'⟩ := h.covered t ht
  exact ⟨w', List.mem_cons_of_mem _ hmem, hw'⟩

theorem checkTimes_of_looks (h : c.looks s = true) :
    c.checkTimes (s :: steps) = s.readings.uptime :: (c.after s).checkTimes steps := if_pos h

theorem checkTimes_of_not_looks (h : c.looks s = false) :
    c.checkTimes (s :: steps) = (c.after s).checkTimes steps := by
  rw [checkTimes, h]
  rfl

theorem exists_of_mem_checkTimes (h : w ∈ c.checkTimes steps) : ∃ pre s post,
    steps = pre ++ s :: post ∧ (c.run pre).looks s = true ∧ s.readings.uptime = w := by
  induction steps generalizing c with
  | nil => cases h
  | cons s steps ih =>
    have hlater (h : w ∈ (c.after s).checkTimes steps) : ∃ pre s' post,
        s :: steps = pre ++ s' :: post ∧ (c.run pre).looks s' = true ∧ s'.readings.uptime = w := by
      obtain ⟨pre, s', post, rfl, hs'⟩ := ih h
      exact ⟨s :: pre, s', post, rfl, hs'⟩
    by_cases hl : c.looks s = true
    · rw [checkTimes_of_looks hl, List.mem_cons] at h
      rcases h with rfl | h
      · exact ⟨[], s, steps, rfl, hl, rfl⟩
      · exact hlater h
    · rw [checkTimes_of_not_looks (Bool.not_eq_true _ ▸ hl)] at h
      exact hlater h

theorem Paced.of_quiet (h : c.Paced v u) (ht : s.call ≠ .tick) (hb : s.call ≠ .boot) :
    (c.after s).Paced v u := by
  refine ⟨(lastScheduleCheck_of_quiet ht hb).trans h.checked, ?_⟩
  rw [tuning_after]
  exact h.ticks

theorem paced_of_looks (ht : s.call = .tick) (hl : c.looks s = true)
    (hi : 0 < c.tuning.scheduleCheckInterval.toNat) :
    (c.after s).Paced s.readings.uptime s.readings.uptime := by
  refine ⟨by rw [(checked_after_tick ht).1, if_pos hl], 0, by omega, ?_⟩
  rw [tuning_after]
  omega

theorem Paced.of_tick (h : c.Paced v u) (ht : s.call = .tick)
    (hu : s.readings.uptime = u + c.tuning.tickInterval.toNat) :
    (c.looks s = true ∧ s.readings.uptime = v + c.tuning.checkSpacing) ∨
      (c.looks s = false ∧ (c.after s).Paced v s.readings.uptime) := by
  obtain ⟨n, rfl, hn⟩ := h.ticks
  have hnext : s.readings.uptime = v + (n + 1) * c.tuning.tickInterval.toNat := by
    rw [hu, Nat.add_mul, Nat.one_mul, Nat.add_assoc]
  have hl := looks_of_some ht h.checked
  rw [hnext, Nat.add_sub_cancel_left] at hl
  -- The interval was not over `n` ticks after the look; this is the tick after those.
  by_cases hdue : c.tuning.scheduleCheckInterval.toNat ≤ (n + 1) * c.tuning.tickInterval.toNat
  · refine .inl ⟨by rw [hl, decide_eq_true hdue], ?_⟩
    rw [hnext, Tuning.checkSpacing_eq hn hdue]
  · rw [decide_eq_false hdue] at hl
    refine .inr ⟨hl, ?_, n + 1, ?_, ?_⟩
    · rw [(checked_after_tick ht).1, hl]
      exact h.checked
    · rw [tuning_after]
      exact hnext
    · rw [tuning_after]
      omega

theorem Paced.lt (h : c.Paced v u) (htuning : c.tuning = tuning)
    (hv : tuning.validate = .ok ()) : v ≤ u ∧ u < v + tuning.checkSpacing := by
  obtain ⟨n, rfl, hn⟩ := h.ticks
  rw [htuning] at hn ⊢
  have hle := Tuning.le_checkSpacing (Tuning.tickInterval_pos hv)
  omega

theorem Paced.spaced (h : c.Paced v u) (htuning : c.tuning = tuning)
    (hv : tuning.validate = .ok ()) (hb : ∀ s ∈ steps, s.call ≠ .boot)
    (hticks : (u :: tickTimes steps).IsChain fun t u => u = t + tuning.tickInterval.toNat) :
    Spaced tuning.checkSpacing (v :: c.checkTimes steps) (tickTimes steps) := by
  -- A look starts the count anew from its own time; a tick without one leaves `v` as it is.
  induction steps generalizing c u v with
  | nil => exact ⟨.singleton v, nofun⟩
  | cons s steps ih =>
    have hafter := (tuning_after c s).trans htuning
    have hbrest : ∀ s' ∈ steps, s'.call ≠ .boot := fun s' hs' => hb s' (List.mem_cons_of_mem _ hs')
    by_cases ht : s.call = .tick
    · rw [tickTimes_of_tick ht, List.isChain_cons_cons] at hticks
      obtain ⟨hu, hticks⟩ := hticks
      rw [tickTimes_of_tick ht]
      rcases h.of_tick ht (by rwa [htuning]) with ⟨hl, hspace⟩ | ⟨hl, hp⟩
      · have hp := paced_of_looks ht hl (htuning ▸ Tuning.scheduleCheckInterval_pos hv)
        rw [checkTimes_of_looks hl]
        refine ((ih hp hafter hbrest hticks).cons_tick (hp.lt hafter hv)).cons_check ?_
        rw [hspace, htuning]
      · rw [checkTimes_of_not_looks hl]
        exact (ih hp hafter hbrest hticks).cons_tick (hp.lt hafter hv)
    · rw [tickTimes_of_ne_tick ht] at hticks ⊢
      rw [checkTimes_of_not_looks (c.looks_of_ne_tick ht)]
      exact ih (h.of_quiet ht (hb s (List.mem_cons_self ..))) hafter hbrest hticks

theorem spaced_of_unchecked (h : c.lastScheduleCheck = none) (htuning : c.tuning = tuning)
    (hv : tuning.validate = .ok ()) (hb : ∀ s ∈ steps, s.call ≠ .boot)
    (hticks : (tickTimes steps).IsChain fun t u => u = t + tuning.tickInterval.toNat) :
    (c.checkTimes steps).head? = (tickTimes steps).head? ∧
      Spaced tuning.checkSpacing (c.checkTimes steps) (tickTimes steps) := by
  induction steps generalizing c with
  | nil => exact ⟨rfl, .nil, nofun⟩
  | cons s steps ih =>
    have hafter := (tuning_after c s).trans htuning
    have hbrest : ∀ s' ∈ steps, s'.call ≠ .boot := fun s' hs' => hb s' (List.mem_cons_of_mem _ hs')
    by_cases ht : s.call = .tick
    · -- The first tick is due whenever it comes, and sets the pace.
      have hl := looks_of_none ht h
      have hp := paced_of_looks ht hl (htuning ▸ Tuning.scheduleCheckInterval_pos hv)
      rw [tickTimes_of_tick ht] at hticks ⊢
      rw [checkTimes_of_looks hl]
      exact ⟨rfl, (hp.spaced hafter hv hbrest hticks).cons_tick (hp.lt hafter hv)⟩
    · rw [tickTimes_of_ne_tick ht] at hticks ⊢
      rw [checkTimes_of_not_looks (c.looks_of_ne_tick ht)]
      have hquiet := lastScheduleCheck_of_quiet (c := c) ht (hb s (List.mem_cons_self ..))
      exact ih (hquiet.trans h) hafter hbrest hticks

theorem exists_mem_minute {start : Int} (hapart : checks.IsChain fun v w => w = v + spacing)
    (hspacing : spacing ≤ 60000) (hfirst : ∀ v ∈ checks.head?, v < start + 60000)
    (hlater : ∃ w ∈ checks, start ≤ w) : ∃ w ∈ checks, start ≤ w ∧ w < start + 60000 := by
  induction checks with
  | nil =>
    obtain ⟨w, hw, -⟩ := hlater
    cases hw
  | cons v checks ih =>
    by_cases hv : start ≤ v
    · exact ⟨v, List.mem_cons_self .., hv, hfirst v rfl⟩
    · obtain ⟨w, hw, hle⟩ := hlater
      rw [List.isChain_cons] at hapart
      have hrest : ∃ w ∈ checks, start ≤ w := by
        rcases List.mem_cons.mp hw with rfl | hw
        · exact absurd hle hv
        · exact ⟨w, hw, hle⟩
      have hnext : ∀ w ∈ checks.head?, w < start + 60000 := by
        intro w hw
        have := hapart.1 w hw
        omega
      obtain ⟨w, hw, hin⟩ := ih hapart.2 hnext hrest
      exact ⟨w, List.mem_cons_of_mem _ hw, hin⟩

theorem Spaced.exists_look {epoch offset m : Int}
    (h : Spaced spacing (c.checkTimes steps) (tickTimes steps)) (hspacing : spacing ≤ 60000)
    (hhead : (c.checkTimes steps).head? = (tickTimes steps).head?)
    (hclock : ∀ s ∈ steps, s.call = .tick → s.ShowsSince epoch)
    (hfirst : ∀ u ∈ (tickTimes steps).head?, epoch + u < 60000 * (m - offset + 1))
    (hlast : ∃ u ∈ tickTimes steps, 60000 * (m - offset + 1) ≤ epoch + u + 1) :
    ∃ pre s post, steps = pre ++ s :: post ∧ (c.run pre).looks s = true ∧ s.InMinute offset m := by
  obtain ⟨u, hu, hend⟩ := hlast
  obtain ⟨v, hv, hvu⟩ := h.covered u hu
  -- The minute `m` opens at uptime `60000 * (m - offset) - epoch`.
  have hwithin : ∀ v ∈ (c.checkTimes steps).head?,
      (v : Int) < 60000 * (m - offset) - epoch + 60000 := by
    rw [hhead]
    intro v hv
    have := hfirst v hv
    omega
  obtain ⟨w, hw, hlo, hhi⟩ := exists_mem_minute h.apart hspacing hwithin ⟨v, hv, by omega⟩
  obtain ⟨pre, s, post, rfl, hlooks, rfl⟩ := exists_of_mem_checkTimes hw
  have ht : s.call = .tick := Call.isTick_eq_true.mp (Bool.and_eq_true_iff.mp hlooks).1
  obtain ⟨unix, hunix, hshows⟩ := hclock s (List.mem_append_right _ (List.mem_cons_self ..)) ht
  refine ⟨pre, s, post, rfl, hlooks, unix, hunix, ?_⟩
  rw [LocalTime.minuteOf]
  omega

/-- On ticks exactly as far apart as they are tuned to be, looks at the schedule begin with the first
tick and come every interval, rounded up to whole ticks. If that is no more than a minute, no minute
is passed over. A tuning that is accepted bounds only the interval before it is rounded, which is
enough where the ticks divide the minute. -/
theorem checks_every_spacing (c : Controller) (r : Readings) (hv : c.tuning.validate = .ok ())
    (hb : ∀ s ∈ steps, s.call ≠ .boot)
    (hticks : (tickTimes steps).IsChain fun t u => u = t + c.tuning.tickInterval.toNat) :
    let b := c.boot r
    let tick := c.tuning.tickInterval.toNat
    ((b.checkTimes steps).head? = (tickTimes steps).head? ∧
      (b.checkTimes steps).IsChain fun v w => w = v + c.tuning.checkSpacing) ∧
    (c.tuning.checkSpacing ≤ 60000 ↔
      c.tuning.scheduleCheckInterval.toNat ≤ 60000 / tick * tick) ∧
    (tick ∣ 60000 → c.tuning.checkSpacing ≤ 60000) ∧
    (c.tuning.checkSpacing ≤ 60000 → ∀ epoch offset m : Int,
      (∀ s ∈ steps, s.call = .tick → s.ShowsSince epoch) →
      (∀ u ∈ (tickTimes steps).head?, epoch + u < 60000 * (m - offset + 1)) →
      (∃ u ∈ tickTimes steps, 60000 * (m - offset + 1) ≤ epoch + u + 1) →
      ∃ pre s post, steps = pre ++ s :: post ∧ (b.run pre).looks s = true ∧ s.InMinute offset m ∧
        ((b.run pre).after s).engine.lastMinute = ((b.run pre).localTime s.readings).elim
          (b.run pre).engine.lastMinute fun t => some t.minuteOfDay) := by
  intro b tick
  have htuning : b.tuning = c.tuning := congrArg Core.tuning (core_boot c r)
  have hnone : b.lastScheduleCheck = none := congrArg Core.lastScheduleCheck (core_boot c r)
  have htick : 0 < tick := Tuning.tickInterval_pos hv
  have hle : c.tuning.checkSpacing ≤ 60000 ↔
      c.tuning.scheduleCheckInterval.toNat ≤ 60000 / tick * tick := Tuning.checkSpacing_le_iff htick
  obtain ⟨hhead, hspaced⟩ := spaced_of_unchecked hnone htuning hv hb hticks
  refine ⟨⟨hhead, hspaced.apart⟩, hle, ?_, ?_⟩
  · intro hdvd
    rw [hle, Nat.div_mul_cancel hdvd]
    exact Tuning.scheduleCheckInterval_le hv
  · intro hspacing epoch offset m hclock hfirst hlast
    obtain ⟨pre, s, post, rfl, hlooks, hin⟩ :=
      hspaced.exists_look hspacing hhead hclock hfirst hlast
    have ht : s.call = .tick := Call.isTick_eq_true.mp (Bool.and_eq_true_iff.mp hlooks).1
    refine ⟨pre, s, post, rfl, hlooks, hin, ?_⟩
    rw [(checked_after_tick ht).2, if_pos hlooks]

theorem checks_every_fifty_seconds :
    let c := blank ⟨25000, 30000, 300000, 5000, 2000, 60000⟩ (.reliable .empty)
    let b := c.boot ⟨0, none, 0⟩
    let steps : List Step := (List.range 6).map fun n =>
      ⟨⟨25000 * n, some (1600000020 + 25 * n), 0⟩, fun _ => none, .tick⟩
    (b.checkTimes steps).head? = some 0 ∧
      (b.checkTimes steps).IsChain (fun v w => w = v + 50000) ∧
      ∃ pre s post, steps = pre ++ s :: post ∧ (b.run pre).looks s = true ∧
        s.InMinute 0 26666668 := by
  intro c b steps
  have htimes : tickTimes steps = [0, 25000, 50000, 75000, 100000, 125000] := by decide
  have hticks : (tickTimes steps).IsChain fun t u => u = t + c.tuning.tickInterval.toNat := by
    rw [htimes]
    decide
  have hb : ∀ s ∈ steps, s.call ≠ .boot := by
    intro s hs
    obtain ⟨n, -, rfl⟩ := List.mem_map.mp hs
    exact nofun
  have hclock : ∀ s ∈ steps, s.call = .tick → s.ShowsSince 1600000020000 := by
    intro s hs _
    obtain ⟨n, -, rfl⟩ := List.mem_map.mp hs
    refine ⟨_, rfl, ?_⟩
    show ((1600000020 + 25 * n : Nat) : Int) = (1600000020000 + (25000 * n : Nat)) / 1000
    omega
  -- Two ticks of 25 s are the fewest that an interval of 30 s fits into.
  have hspacing : c.tuning.checkSpacing = 50000 := by decide
  obtain ⟨⟨hhead, hchain⟩, -, -, hminutes⟩ :=
    checks_every_spacing c ⟨0, none, 0⟩ rfl hb hticks
  rw [hspacing] at hchain hminutes
  rw [htimes] at hhead hminutes
  obtain ⟨pre, s, post, hsteps, hlooks, hin, -⟩ :=
    hminutes (by decide) 1600000020000 0 26666668 hclock (by decide) ⟨125000, by decide, by decide⟩
  exact ⟨hhead, hchain, pre, s, post, hsteps, hlooks, hin⟩

theorem checks_miss_a_minute :
    let c := blank ⟨45000, 60000, 300000, 5000, 2000, 60000⟩ (.reliable .empty)
    let b := c.boot ⟨0, none, 0⟩
    let steps : List Step := (List.range 5).map fun n =>
      ⟨⟨45000 * n, some (1600000020 + 45 * n), 0⟩, fun _ => none, .tick⟩
    c.tuning.validate = .ok () ∧ tickTimes steps = [0, 45000, 90000, 135000, 180000] ∧
      b.checkTimes steps = [0, 90000, 180000] ∧
      ¬(b.checkTimes steps).IsChain (fun v w => w ≤ v + 60000) ∧
      (∃ s ∈ steps, s.InMinute 0 26666669) ∧
      ∀ s ∈ steps, s.InMinute 0 26666669 → s.readings.uptime ∉ b.checkTimes steps := by
  intro c b steps
  have htimes : b.checkTimes steps = [0, 90000, 180000] := by decide +kernel
  refine ⟨rfl, by decide, htimes, ?_, ?_, ?_⟩
  · rw [htimes]
    decide
  · exact ⟨_, List.mem_map.mpr ⟨3, by decide, rfl⟩, _, rfl, by decide⟩
  · intro s hs
    obtain ⟨n, hn, rfl⟩ := List.mem_map.mp hs
    rintro ⟨unix, hunix, hm⟩
    rw [List.mem_range] at hn
    obtain rfl := Option.some.inj hunix
    rw [LocalTime.minuteOf] at hm
    rw [htimes]
    simp only [List.mem_cons, List.not_mem_nil, or_false]
    omega

end

end Controller

end Espresso
