import Espresso.Controller.Run

namespace Espresso.Controller

theorem persistStats_frame (c : Controller) (now : Nat) : ∃ medium statsDirty,
    c.persistStats now = { c with medium, statsDirty, lastStatsSave := now } := by
  unfold persistStats store
  rcases c.stats.save c.medium with ⟨_ | _, medium⟩ <;> exact ⟨medium, _, rfl⟩

theorem markHistory_frame (c : Controller) (r : Readings) : ∃ historyDirty historySaveDue,
    c.markHistory r = { c with historyDirty, historySaveDue } := by
  unfold markHistory
  split <;> exact ⟨_, _, rfl⟩

theorem serviceStats_frame (c : Controller) (now : Nat) : ∃ medium statsDirty lastStatsSave,
    c.serviceStats now = { c with medium, statsDirty, lastStatsSave } := by
  unfold serviceStats
  split
  · exact ⟨c.medium, c.statsDirty, c.lastStatsSave, rfl⟩
  · split
    · obtain ⟨medium, statsDirty, h⟩ := c.persistStats_frame now
      exact ⟨medium, statsDirty, now, h⟩
    · exact ⟨c.medium, c.statsDirty, now, rfl⟩

theorem serviceHistory_frame (c : Controller) (r : Readings) :
    ∃ medium historyDirty historySaveDue,
      c.serviceHistory r = { c with medium, historyDirty, historySaveDue } := by
  unfold serviceHistory store
  split
  · dsimp only
    split
    · exact ⟨c.medium, c.historyDirty, _, rfl⟩
    · rcases c.history.save c.medium with ⟨_ | _, medium⟩ <;> exact ⟨medium, _, _, rfl⟩
  · exact ⟨c.medium, c.historyDirty, c.historySaveDue, rfl⟩

theorem creditOnTime_frame (c : Controller) (now : Nat) : ∃ onTimeCarry,
    c.creditOnTime now = { c with lastTick := now, onTimeCarry } ∨
    ∃ minutes, c.creditOnTime now =
      ({ c with lastTick := now, onTimeCarry } : Controller).setStats
        (c.stats.addOnMinutes minutes) := by
  unfold creditOnTime
  split
  · exact ⟨0, .inl rfl⟩
  · refine ⟨(c.onTimeCarry + (now - c.lastTick)) % minute, ?_⟩
    dsimp only
    split
    · exact .inl rfl
    · exact .inr ⟨_, rfl⟩

theorem rollDay_frame (c : Controller) (r : Readings) :
    c.rollDay r = c ∨ ∃ day,
      (c.stats.isNewDay day = false ∧ ∃ statsDirty,
        c.rollDay r = { c with stats := c.stats.rollDay day, statsDirty }) ∨
      c.rollDay r = c.setStats (c.stats.rollDay day) := by
  unfold rollDay
  split
  · exact .inl rfl
  · next time _ =>
    refine .inr ⟨.ofNat time.day, ?_⟩
    dsimp only
    split
    · exact .inr rfl
    · next h => exact .inl ⟨Bool.eq_false_iff.mpr h, _, rfl⟩

theorem foldl_publish (c : Controller) (events : List Event) :
    events.foldl publish c = { c with outbox := c.outbox ++ events } := by
  induction events generalizing c with
  | nil => rw [List.append_nil]; rfl
  | cons e events ih =>
    rw [List.foldl_cons, ih, publish, List.append_assoc]
    rfl

theorem checkSchedule_frame (c : Controller) (r : Readings) :
    ∃ engine lastScheduleCheck, ∃ entries : List ScheduleEntry, c.checkSchedule r = { c with
      engine
      lastScheduleCheck
      outbox := c.outbox ++ entries.map Event.scheduleTriggered } := by
  unfold checkSchedule
  split
  · exact ⟨_, _, _, foldl_publish ..⟩
  · exact ⟨c.engine, c.lastScheduleCheck, [], by rw [List.map_nil, List.append_nil]⟩

end Espresso.Controller
