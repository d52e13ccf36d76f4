import Espresso.Schedule.Engine

namespace Espresso

theorem ScheduleEntry.mem_of_winner {entries : List ScheduleEntry} {e : ScheduleEntry}
    (h : winner entries = some e) : e ∈ entries := by
  refine List.foldlRecOn (motive := fun best => ∀ b, best = some b → b ∈ entries) entries _ ?_ ?_ e h
  · intro b hb
    cases hb
  · intro best hbest a ha b hb
    cases best with
    | none =>
      obtain rfl := Option.some.inj hb
      exact ha
    | some c =>
      dsimp only at hb
      split at hb <;> obtain rfl := Option.some.inj hb
      · exact ha
      · exact hbest _ rfl

namespace ScheduleEngine

variable (g : ScheduleEngine) (t : ScheduleTable) (time : Option LocalTime) (mode : MachineMode)
  (shotActive : Bool) (now : Nat)

theorem isIdleTimeout_eq_true : g.isIdleTimeout t mode shotActive now = true ↔
    t.autoOffEnabled = true ∧ 1 ≤ t.autoOffMinutes.toNat ∧ mode ≠ .standby ∧ shotActive = false ∧
      g.lastActivity + t.autoOffMinutes.toNat * minute ≤ now := by
  have hm : t.autoOffMinutes ≠ 0 ↔ 1 ≤ t.autoOffMinutes.toNat := by
    rw [Nat.one_le_iff_ne_zero, ne_eq, ne_eq, ← UInt16.toNat_inj]
    rfl
  rw [isIdleTimeout, idle]
  simp only [Bool.and_eq_true, decide_eq_true_eq, Bool.not_eq_true', hm, and_assoc]
  constructor
  · rintro ⟨he, h1, hs, ha, hn⟩
    refine ⟨he, h1, hs, ha, ?_⟩
    have : 0 < t.autoOffMinutes.toNat * minute := Nat.mul_pos h1 (by decide)
    omega
  · rintro ⟨he, h1, hs, ha, hn⟩
    refine ⟨he, h1, hs, ha, ?_⟩
    omega

theorem lastActivity_evaluate : (g.evaluate t time).2.lastActivity = g.lastActivity := by
  unfold evaluate
  split
  · rfl
  · split <;> rfl

theorem isIdleTimeout_evaluate :
    (g.evaluate t time).2.isIdleTimeout t mode shotActive now =
      g.isIdleTimeout t mode shotActive now := by
  rw [isIdleTimeout, isIdleTimeout, idle, idle, lastActivity_evaluate]

theorem mem_of_evaluate {e : ScheduleEntry} (h : (g.evaluate t time).1 = some e) :
    e ∈ t.entries := by
  unfold evaluate at h
  split at h
  · cases h
  · split at h
    · cases h
    · exact (List.mem_filter.mp (ScheduleEntry.mem_of_winner h)).1

theorem fst_tick : (g.tick t time mode shotActive now).1 =
    (g.evaluate t time).1.toList ++
      if g.isIdleTimeout t mode shotActive now then [.autoPowerOff] else [] := by
  rw [tick]
  simp only [isIdleTimeout_evaluate]
  split
  · rfl
  · exact (List.append_nil _).symm

theorem lastActivity_tick : (g.tick t time mode shotActive now).2.lastActivity =
    if g.isIdleTimeout t mode shotActive now then now else g.lastActivity := by
  rw [tick]
  simp only [isIdleTimeout_evaluate]
  split
  · rfl
  · exact lastActivity_evaluate ..

theorem lastMinute_evaluate : (g.evaluate t time).2.lastMinute =
    time.elim g.lastMinute fun t => some t.minuteOfDay := by
  unfold evaluate
  cases time with
  | none => rfl
  | some time =>
    dsimp only [Option.elim]
    split
    · next h => exact h
    · rfl

theorem lastMinute_tick : (g.tick t time mode shotActive now).2.lastMinute =
    time.elim g.lastMinute fun t => some t.minuteOfDay := by
  rw [tick, ← lastMinute_evaluate g t time]
  dsimp only
  split <;> rfl

theorem filter_fst_tick (ht : ∀ e ∈ t.entries, e.id ≠ 0) :
    (g.tick t time mode shotActive now).1.filter (fun e => e.id = 0) =
        (if g.isIdleTimeout t mode shotActive now then [.autoPowerOff] else []) ∧
      (g.tick t time mode shotActive now).1.filter (fun e => e.id ≠ 0) =
        (g.evaluate t time).1.toList := by
  have hid : ∀ e ∈ (g.evaluate t time).1.toList, e.id ≠ 0 := by
    intro e he
    exact ht e (mem_of_evaluate g t time (Option.mem_toList.mp he))
  have hoff : ScheduleEntry.autoPowerOff.id = 0 := rfl
  rw [fst_tick, List.filter_append, List.filter_append]
  constructor
  · rw [List.filter_eq_nil_iff.mpr (by simpa using hid)]
    split <;> simp [hoff]
  · rw [List.filter_eq_self.mpr (by simpa using hid)]
    split <;> simp [hoff]

end ScheduleEngine

end Espresso
