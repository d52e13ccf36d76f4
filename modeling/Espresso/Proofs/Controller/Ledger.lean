import Espresso.Proofs.Controller.Books
import Espresso.Proofs.Records

/-!
How the statistics are kept in the store. Every call enters something in the ledger in one of five
ways, and only a tick and a maintenance try to write it.
-/

namespace Espresso

def Statistics.lasting (s : Statistics) : Statistics :=
  { s with sessionStart := 0, sessionShots := 0 }

theorem Statistics.load_congr {m m' : Medium} (h : m'.read address = m.read address) :
    load m' = load m := by
  rw [load, h]
  rfl

theorem Statistics.rollDay_eq_self {s : Statistics} {day : UInt32} (hnew : ¬s.isNewDay day = true)
    (hday : (s.rollDay day).day = s.day) : s.rollDay day = s := by
  rw [rollDay, if_neg hnew] at hday ⊢
  have hmax : max s.day day = s.day := hday
  rw [hmax]

structure Ledger where
  tuning : Tuning
  medium : Medium
  stats : Statistics
  dirty : Bool
  lastSave : Nat

namespace Ledger

def writes (l : Ledger) : List Attempt := l.medium.writes Statistics.address

def isDue (l : Ledger) (now : Nat) : Bool :=
  l.dirty && l.tuning.statsSaveInterval.toNat ≤ now - l.lastSave

def save (l : Ledger) (now : Nat) : Ledger :=
  { l with
    medium := (l.stats.save l.medium).2
    dirty := l.dirty && !(l.stats.save l.medium).1.isOk
    lastSave := now }

def service (l : Ledger) (now : Nat) : Ledger :=
  if now - l.lastSave < l.tuning.statsSaveInterval.toNat then l
  else if l.dirty then l.save now
  else { l with lastSave := now }

structure Marks (l l' : Ledger) : Prop where
  tuning : l'.tuning = l.tuning
  lastSave : l'.lastSave = l.lastSave
  medium : l.medium.Elsewhere Statistics.address l'.medium
  marked : l'.dirty = true ∨ l'.dirty = l.dirty ∧ l'.stats = l.stats

variable {l l' l'' : Ledger} {r : Readings} {q : Call} {now : Nat}

theorem Marks.refl (l : Ledger) : l.Marks l := ⟨rfl, rfl, .refl .., .inr ⟨rfl, rfl⟩⟩

theorem Marks.trans (h : l.Marks l') (h' : l'.Marks l'') : l.Marks l'' where
  tuning := h'.tuning.trans h.tuning
  lastSave := h'.lastSave.trans h.lastSave
  medium := h.medium.trans h'.medium
  marked := by
    rcases h'.marked with hd' | ⟨hd', hs'⟩
    · exact .inl hd'
    · rcases h.marked with hd | ⟨hd, hs⟩
      · exact .inl (hd'.trans hd)
      · exact .inr ⟨hd'.trans hd, hs'.trans hs⟩

theorem Marks.writes (h : l.Marks l') : l'.writes = l.writes := h.medium.writes_eq

theorem Marks.dirty (h : l.Marks l') (hd : l.dirty = true) : l'.dirty = true :=
  h.marked.elim id fun hm => hm.1.trans hd

inductive Entry (r : Readings) (q : Call) (l : Ledger) : Ledger → Prop where
  | marked {l' : Ledger} (hq : q ≠ .tick) (h : l.Marks l') : Entry r q l l'
  | maintained {kind : Maintenance} (stats : Statistics)
    (hq : q.operation? = some (.maintenance kind)) :
    Entry r q l ({ l with stats, dirty := true }.save r.uptime)
  | reset (stamp : UInt32) (hq : q.operation? = some .factoryReset) :
    Entry r q l { l with
      medium := (Controller.eraseSpaces Controller.spaces l.medium).2
      stats := Statistics.zero.startSession stamp
      dirty := false
      lastSave := r.uptime }
  | booted (stamp : UInt32) (hq : q = .boot) :
    Entry r q l { l with
      stats := (Statistics.load l.medium).startSession stamp
      dirty := false
      lastSave := r.uptime }
  | ticked {l₁ l₂ : Ledger} (hq : q = .tick) (h : l.Marks l₁)
    (h' : (l₁.service r.uptime).Marks l₂) : Entry r q l l₂

theorem writes_save (l : Ledger) (now : Nat) : ∃ failure,
    (l.save now).writes = l.writes ++ [⟨.write Statistics.address l.stats.pack, failure⟩] :=
  l.medium.writes_write Statistics.address l.stats.pack

theorem service_of_due (h : l.isDue now = true) : l.service now = l.save now := by
  obtain ⟨hd, hle⟩ := Bool.and_eq_true_iff.mp h
  rw [service, if_neg (Nat.not_lt.mpr (of_decide_eq_true hle)), if_pos hd]

theorem service_of_not_due (h : l.isDue now = false) :
    l.service now = l ∨ l.dirty = false ∧ l.service now = { l with lastSave := now } := by
  unfold service
  split
  · exact .inl rfl
  · next hlt =>
    have hd : l.dirty = false := by simpa [isDue, Nat.not_lt.mp hlt] using h
    rw [hd]
    exact .inr ⟨rfl, rfl⟩

theorem writes_service_of_not_due (h : l.isDue now = false) :
    (l.service now).writes = l.writes := by
  rcases service_of_not_due h with hs | ⟨-, hs⟩
  · rw [hs]
  · rw [hs]
    rfl

theorem lastSave_service (hl : l.lastSave ≤ now) :
    l.lastSave ≤ (l.service now).lastSave ∧ (l.service now).lastSave ≤ now ∧
      ((l.service now).writes = l.writes ∨ (l.service now).lastSave = now) := by
  cases hd : l.isDue now with
  | true =>
    rw [service_of_due hd]
    exact ⟨hl, Nat.le_refl _, .inr rfl⟩
  | false =>
    rcases service_of_not_due hd with hs | ⟨-, hs⟩ <;> rw [hs]
    · exact ⟨Nat.le_refl _, hl, .inl rfl⟩
    · exact ⟨hl, Nat.le_refl _, .inr rfl⟩

namespace Entry

theorem lastSave (h : l.Entry r q l') (hl : l.lastSave ≤ r.uptime) :
    l.lastSave ≤ l'.lastSave ∧ l'.lastSave ≤ r.uptime ∧
      (l'.writes = l.writes ∨ l'.lastSave = r.uptime) := by
  cases h with
  | marked hq h =>
    rw [h.lastSave]
    exact ⟨Nat.le_refl _, hl, .inl h.writes⟩
  | maintained => exact ⟨hl, Nat.le_refl _, .inr rfl⟩
  | reset => exact ⟨hl, Nat.le_refl _, .inr rfl⟩
  | booted => exact ⟨hl, Nat.le_refl _, .inr rfl⟩
  | ticked hq h h' =>
    rw [← h.lastSave] at hl
    rw [h'.lastSave, h'.writes, ← h.lastSave, ← h.writes]
    exact lastSave_service hl

theorem writes_ne (h : l.Entry r q l') (hw : l'.writes ≠ l.writes) :
    q = .tick ∨ ∃ kind, q.operation? = some (.maintenance kind) := by
  cases h with
  | marked hq h => exact absurd h.writes hw
  | maintained stats hq => exact .inr ⟨_, hq⟩
  | reset stamp hq => exact absurd (Medium.writes_eraseSpaces ..) hw
  | booted => exact absurd rfl hw
  | ticked hq => exact .inl hq

theorem lastSave_of_dirty (h : l.Entry r q l') (hd : l.dirty = true) (hd' : l'.dirty = true)
    (hw : l'.writes = l.writes) : l'.lastSave = l.lastSave := by
  cases h with
  | marked hq h => exact h.lastSave
  | maintained stats =>
    obtain ⟨failure, hs⟩ := writes_save { l with stats, dirty := true } r.uptime
    exact absurd (hs.symm.trans hw) (by simp [writes])
  | reset => cases hd'
  | booted => cases hd'
  | @ticked l₁ _ hq h h' =>
    -- An attempt would show in what is written, and a clean ledger only would move the time.
    rw [h'.lastSave, ← h.lastSave]
    rw [h'.writes, ← h.writes] at hw
    cases hdue : l₁.isDue r.uptime with
    | true =>
      obtain ⟨failure, hs⟩ := writes_save l₁ r.uptime
      rw [service_of_due hdue] at hw
      exact absurd (hs.symm.trans hw) (by simp)
    | false =>
      rcases service_of_not_due hdue with hs | ⟨hclean, -⟩
      · rw [hs]
      · cases (h.dirty hd).symm.trans hclean

end Entry

/-- Statistics without a mark are those that are stored. -/
structure Balanced (l : Ledger) : Prop where
  serves : l.medium.Serves
  stored : l.dirty = false → (Statistics.load l.medium).lasting = l.stats.lasting

namespace Balanced

theorem marks (h : l.Balanced) (hm : l.Marks l') : l'.Balanced where
  serves := hm.medium.serves h.serves
  stored hd := by
    rcases hm.marked with hd' | ⟨hd', hs⟩
    · cases hd.symm.trans hd'
    · rw [Statistics.load_congr (hm.medium.read_eq h.serves), hs]
      exact h.stored (hd'.symm.trans hd)

theorem save (hm : l.medium.Serves) (hd : l.dirty = true) (now : Nat) : (l.save now).Balanced where
  serves := hm.write _ _
  stored hclean := by
    have hok : (l.stats.save l.medium).1.isOk = true := by simpa [Ledger.save, hd] using hclean
    have hread := hm.read_of_write l.stats.length_pack_le_capacity hok
    have hload : Statistics.load (l.stats.save l.medium).2 = l.stats := by
      rw [Statistics.save, Statistics.load_of_read hread, l.stats.takes_unpack.run?]
      rfl
    exact congrArg Statistics.lasting hload

theorem service (h : l.Balanced) (now : Nat) : (l.service now).Balanced := by
  cases hd : l.isDue now with
  | true =>
    rw [service_of_due hd]
    exact .save h.serves (Bool.and_eq_true_iff.mp hd).1 now
  | false =>
    rcases service_of_not_due hd with hs | ⟨-, hs⟩ <;> rw [hs]
    · exact h
    · exact ⟨h.serves, h.stored⟩

theorem entry (h : l.Balanced) (he : l.Entry r q l') : l'.Balanced := by
  cases he with
  | marked hq hm => exact h.marks hm
  | maintained stats hq => exact .save (l := { l with stats, dirty := true }) h.serves rfl _
  | reset stamp hq =>
    have hread := Medium.read_eraseSpaces h.serves (a := Statistics.address) (by decide)
    refine ⟨(Medium.serves_eraseSpaces h.serves _).1, fun _ => ?_⟩
    show (Statistics.load _).lasting = _
    rw [Statistics.load, hread]
    rfl
  | booted stamp hq => exact ⟨h.serves, fun _ => rfl⟩
  | ticked hq hm hm' => exact ((h.marks hm).service _).marks hm'

end Balanced

end Ledger

namespace Controller

def ledger (c : Controller) : Ledger where
  tuning := c.tuning
  medium := c.medium
  stats := c.stats
  dirty := c.statsDirty
  lastSave := c.lastStatsSave

variable {c d : Controller} {r : Readings} {q : Call}

theorem SparesBooks.marks (h : c.SparesBooks d) : c.ledger.Marks d.ledger :=
  ⟨h.tuning, h.lastStatsSave, h.medium _ (by simp [books]), .inr ⟨h.statsDirty, h.stats⟩⟩

theorem marks_setStats (c : Controller) (stats : Statistics) :
    c.ledger.Marks (c.setStats stats).ledger :=
  ⟨rfl, rfl, .refl .., .inl rfl⟩

theorem marks_saveHistory (c : Controller) (history : ShotHistory) :
    c.ledger.Marks (c.store history.save).2.ledger := by
  refine ⟨rfl, rfl, ?_, .inr ⟨rfl, rfl⟩⟩
  show c.medium.Elsewhere Statistics.address (history.save c.medium).2
  unfold ShotHistory.save
  split
  · exact Medium.elsewhere_delete (by decide) _
  · exact Medium.elsewhere_write (by decide) _ _

theorem marks_markHistory (c : Controller) (r : Readings) :
    c.ledger.Marks (c.markHistory r).ledger := by
  obtain ⟨historyDirty, historySaveDue, h⟩ := c.markHistory_frame r
  rw [h]
  exact .refl _

theorem ledger_syncType (c : Controller) : c.syncType.ledger = c.ledger := by
  rw [syncType]
  split <;> rfl

theorem ledger_persistStats (c : Controller) (now : Nat) :
    (c.persistStats now).ledger = c.ledger.save now := by
  have hs : c.ledger.stats.save c.ledger.medium = c.stats.save c.medium := rfl
  rw [persistStats, store, Ledger.save, hs]
  rcases c.stats.save c.medium with ⟨_ | _, medium⟩
  · simp [ledger, Except.isOk, Except.toBool]
  · simp [ledger, Except.isOk, Except.toBool]

theorem marks_ifChanged {o : Option Controller} (h : ∀ d, o = some d → c.ledger.Marks d.ledger) :
    c.ledger.Marks (c.ifChanged o).2.ledger := by
  cases o with
  | none => exact .refl _
  | some d => exact h d rfl

theorem entry_perform (c : Controller) (r : Readings) {q : Call} {x : Command}
    (hq : q.operation? = some x) : c.ledger.Entry r q (c.perform r x).2.ledger := by
  have ht : q ≠ .tick := by
    rintro rfl
    cases hq
  by_cases hx : x.sparesBooks = true
  · exact .marked ht (sparesBooks_perform c r hx).marks
  · cases x with
    | endShot =>
      apply Ledger.Entry.marked ht
      apply marks_ifChanged
      intro d hd
      obtain ⟨p, hp, rfl⟩ := Option.map_eq_some_iff.mp hd
      obtain ⟨⟨shot, machine⟩, -, rfl⟩ := Option.map_eq_some_iff.mp hp
      exact ⟨rfl, rfl, .refl .., .inl rfl⟩
    | rateShot index rating =>
      apply Ledger.Entry.marked ht
      simp only [perform, rateShot]
      cases c.history.rate index rating with
      | error e => exact .refl _
      | ok history => exact marks_markHistory { c with history } r
    | clearHistory => exact .marked ht (marks_saveHistory { c with
        history := c.history.clear
        historyDirty := false } c.history.clear)
    | steamCycle => exact .marked ht (marks_setStats ..)
    | energy amount =>
      apply Ledger.Entry.marked ht
      apply marks_ifChanged
      intro d hd
      obtain ⟨stats, -, rfl⟩ := Option.map_eq_some_iff.mp hd
      exact marks_setStats ..
    | maintenance kind =>
      have hs := ledger_persistStats { c with
        stats := c.stats.recordMaintenance kind (c.timestamp r)
        statsDirty := true } r.uptime
      show c.ledger.Entry r q (persistStats _ r.uptime).ledger
      rw [hs]
      exact .maintained _ hq
    | factoryReset =>
      rw [(perform_factoryReset c r).1]
      show c.ledger.Entry r q (syncType _).ledger
      rw [ledger_syncType]
      exact .reset _ hq
    | _ => exact absurd rfl hx

theorem ledger_serviceStats (c : Controller) (now : Nat) :
    (c.serviceStats now).ledger = c.ledger.service now := by
  have hd : c.ledger.dirty = c.statsDirty := rfl
  have hl : c.ledger.lastSave = c.lastStatsSave := rfl
  have ht : c.ledger.tuning = c.tuning := rfl
  rw [serviceStats, Ledger.service, hd, hl, ht]
  split
  · rfl
  · split
    · exact ledger_persistStats c now
    · rfl

theorem marks_creditOnTime (c : Controller) (now : Nat) :
    c.ledger.Marks (c.creditOnTime now).ledger := by
  obtain ⟨onTimeCarry, h | ⟨minutes, h⟩⟩ := c.creditOnTime_frame now <;> rw [h]
  · exact .refl _
  · exact marks_setStats { c with lastTick := now, onTimeCarry } _

theorem marks_serviceHistory (c : Controller) (r : Readings) :
    c.ledger.Marks (c.serviceHistory r).ledger := by
  have hs := marks_saveHistory c c.history
  unfold serviceHistory
  split
  · dsimp only
    split
    · exact .refl _
    · split <;> rename_i h <;> rw [h] at hs <;> exact hs
  · exact .refl _

theorem marks_rollDay (c : Controller) (r : Readings) : c.ledger.Marks (c.rollDay r).ledger := by
  unfold rollDay
  split
  · exact .refl _
  · next time _ =>
    dsimp only
    split
    · exact marks_setStats ..
    · next hnew =>
      -- A day that is noted without any other change is marked, too.
      refine ⟨rfl, rfl, .refl .., ?_⟩
      by_cases hday : (c.stats.rollDay (.ofNat time.day)).day = c.stats.day
      · right
        exact ⟨by simp [ledger, hday], Statistics.rollDay_eq_self hnew hday⟩
      · left
        simp [ledger, hday]

theorem ledger_checkSchedule (c : Controller) (r : Readings) :
    (c.checkSchedule r).ledger = c.ledger := by
  obtain ⟨engine, lastScheduleCheck, entries, h⟩ := c.checkSchedule_frame r
  rw [h]
  rfl

theorem marks_tick (c : Controller) (r : Readings) :
    ((({ c with machine := c.machine.setUptime r.uptime } : Controller).creditOnTime
      r.uptime).ledger.service r.uptime).Marks (c.tick r).ledger := by
  -- The day is rolled after the ledger was written, so that a new day stays marked.
  rw [tick, ledger_checkSchedule, ← ledger_serviceStats]
  exact (marks_serviceHistory _ r).trans (marks_rollDay _ r)

theorem entry_call (c : Controller) (r : Readings) (q : Call) :
    c.ledger.Entry r q (c.call r q).2.ledger := by
  cases q with
  | command x =>
    show c.ledger.Entry r (.command x) (c.handle r x).2.ledger
    unfold handle
    split
    · exact entry_perform c r rfl
    · exact entry_perform (c.resetIdle r) r rfl
  | direct x => exact entry_perform c r rfl
  | resetDaily => exact .marked nofun (marks_setStats ..)
  | boot => exact .booted _ rfl
  | tick =>
    have hc := marks_creditOnTime { c with machine := c.machine.setUptime r.uptime } r.uptime
    exact .ticked rfl hc (marks_tick c r)
  | _ => exact .marked nofun (sparesBooks_call c r rfl).marks

theorem entry_after (c : Controller) (s : Step) :
    (c.facing s).ledger.Entry s.readings s.call (c.after s).ledger :=
  entry_call (c.facing s) s.readings s.call

end Controller

end Espresso
