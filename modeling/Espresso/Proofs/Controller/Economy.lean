import Espresso.Proofs.Controller.Upkeep
import Espresso.Proofs.Controller.Watch

namespace Espresso

namespace Upkeep

variable {k k' : Upkeep} {r : Readings} {q : Call}

theorem history_service (k : Upkeep) (r : Readings) : (k.service r).history = k.history := by
  unfold service
  split
  · split
    · split <;> rfl
    · rfl
  · rfl

theorem due_service (hm : (k.service r).dirty = true) :
    k.dirty = true ∧ (k.service r).due = if k.isDue r then k.retryAt r else k.due := by
  cases hd : k.isDue r with
  | false =>
    rw [service_of_not_due hd] at hm ⊢
    exact ⟨hm, rfl⟩
  | true =>
    have hdirty : k.dirty = true := (Bool.and_eq_true_iff.mp hd).1
    cases hr : k.hasRoom r with
    | false =>
      rw [service_of_no_room hd hr]
      exact ⟨hdirty, rfl⟩
    | true =>
      rw [service_of_room hd hr] at hm ⊢
      split
      · next ho =>
        rw [if_pos ho] at hm
        cases hm
      · exact ⟨hdirty, rfl⟩

theorem dirty_service (hm : (k.service r).dirty = false) :
    k.dirty = false ∨ k.dirty = true ∧ k.due ≤ r.uptime := by
  cases hd : k.isDue r with
  | false =>
    rw [service_of_not_due hd] at hm
    exact .inl hm
  | true => exact .inr (by simpa [isDue] using hd)

theorem medium_service (h : k.isDue r = false ∨ k.hasRoom r = false) :
    (k.service r).medium = k.medium := by
  cases hd : k.isDue r with
  | false => rw [service_of_not_due hd]
  | true =>
    have hr : k.hasRoom r = false := h.resolve_left (by simp [hd])
    rw [service_of_no_room hd hr]

theorem attempts_service (hd : k.isDue r = true) (hr : k.hasRoom r = true)
    (hn : 0 < k.history.size) : ∃ failure,
      (k.service r).medium.attempts =
        k.medium.attempts ++ [⟨.write ShotHistory.address k.history.toBytes, failure⟩] ∧
      (k.service r).dirty = failure.isSome ∧
      (k.medium.store.available = true →
        k.medium.refuses (.write ShotHistory.address k.history.toBytes) = none →
          failure = none ∧ (k.service r).medium.store.lookup ShotHistory.address.path =
            some k.history.toBytes) := by
  have hsave : k.history.save k.medium = k.medium.write ShotHistory.address k.history.toBytes :=
    if_neg (Nat.ne_of_gt hn)
  have hdirty : k.dirty = true := (Bool.and_eq_true_iff.mp hd).1
  rw [service_of_room hd hr, hsave, Medium.write]
  rcases Medium.attempt_cases k.medium (.write ShotHistory.address k.history.toBytes)
    (·.write ShotHistory.address k.history.toBytes) with ⟨store, -, hs, h⟩ | ⟨e, he, h⟩
  · rw [h]
    exact ⟨none, rfl, rfl, fun _ _ => ⟨rfl, (Store.write_eq_ok hs).2.1⟩⟩
  · rw [h]
    refine ⟨some e, rfl, hdirty, ?_⟩
    intro ha hw
    obtain ⟨store, hs⟩ := Store.exists_write (a := ShotHistory.address) ha
      k.history.length_toBytes_le
    rcases he with he | he
    · cases hw.symm.trans he
    · cases hs.symm.trans he

namespace Turn

theorem of_completes (h : k.Turn r q k') (hc : k.completes q) :
    k'.dirty = true ∧ k'.due = k.quietUntil r := by
  cases h with
  | spared _ hn _ => exact absurd hc hn
  | completed => exact ⟨rfl, rfl⟩
  | rated hq => cases hc.1.symm.trans hq
  | cleared hq => cases hc.1.symm.trans hq
  | reset hq => cases hc.1.symm.trans hq
  | booted hq =>
    subst hq
    cases hc.1
  | ticked hq =>
    subst hq
    cases hc.1

theorem of_tick (h : k.Turn r .tick k') : ∃ k₁, k.Spares k₁ ∧ k' = k₁.service r := by
  cases h with
  | spared hq => exact absurd rfl hq
  | completed shot hc => cases hc.1
  | rated hq => cases hq
  | cleared hq => cases hq
  | reset hq => cases hq
  | booted hq => cases hq
  | ticked _ hs => exact ⟨_, hs, rfl⟩

theorem marked (h : k.Turn r q k') (hm : k'.dirty = true) :
    k.dirty = true ∧ k.due ≤ k'.due ∨
      k'.due = k.quietUntil r ∧ (k.completes q ∨ k.dirty = false ∧ k.rates q) := by
  cases h with
  | spared _ _ hs => exact .inl ⟨hs.dirty.symm.trans hm, Nat.le_of_eq hs.due.symm⟩
  | completed shot hc => exact .inr ⟨rfl, .inl hc⟩
  | rated hq hr =>
    cases hd : k.dirty with
    | false => exact .inr ⟨rfl, .inr ⟨rfl, _, _, _, hq, hr⟩⟩
    | true => exact .inl ⟨rfl, Nat.le_refl _⟩
  | cleared => cases hm
  | reset => cases hm
  | booted => cases hm
  | ticked hq hs =>
    obtain ⟨hd, hdue⟩ := due_service hm
    refine .inl ⟨hs.dirty.symm.trans hd, ?_⟩
    rw [hdue, ← hs.due]
    split
    · next h =>
      rw [isDue, Bool.and_eq_true, decide_eq_true_eq] at h
      exact Nat.le_trans h.2 (Nat.le_add_right ..)
    · exact Nat.le_refl _

theorem unmarked (h : k.Turn r q k') (hm : k'.dirty = false) (hb : q ≠ .boot) :
    k.dirty = false ∧ k'.history = k.history ∨ k'.history.size = 0 ∨
      k.dirty = true ∧ k.due ≤ r.uptime := by
  cases h with
  | spared _ _ hs => exact .inl ⟨hs.dirty.symm.trans hm, hs.history⟩
  | completed => cases hm
  | rated => cases hm
  | cleared => exact .inr (.inl rfl)
  | reset => exact .inr (.inl rfl)
  | booted hq => exact absurd hq hb
  | ticked hq hs =>
    rw [← hs.dirty, ← hs.due, history_service, hs.history]
    exact (dirty_service hm).imp (⟨·, rfl⟩) .inr

theorem size_pos (h : k.Turn r q k') (hk : k.dirty = true → 0 < k.history.size)
    (hm : k'.dirty = true) : 0 < k'.history.size := by
  cases h with
  | spared _ _ hs =>
    rw [hs.history]
    exact hk (hs.dirty.symm.trans hm)
  | completed shot => exact ShotHistory.size_add_pos _ _
  | rated hq hr =>
    obtain ⟨hsize, hindex⟩ := ShotHistory.size_rate hr
    exact Nat.lt_of_le_of_lt (Nat.zero_le _) (hsize ▸ hindex)
  | cleared => cases hm
  | reset => cases hm
  | booted => cases hm
  | ticked hq hs =>
    rw [history_service, hs.history]
    exact hk (hs.dirty.symm.trans (due_service hm).1)

end Turn

end Upkeep

namespace Controller

variable {c : Controller} {now due : Nat} {steps : List Step} {s : Step}

theorem size_pos_run (c : Controller) (r : Readings) (steps : List Step) :
    ((c.boot r).run steps).historyDirty = true → 0 < ((c.boot r).run steps).history.size := by
  apply run_induction (P := fun d => d.upkeep.dirty = true → 0 < d.upkeep.history.size)
  · rw [upkeep_boot]
    exact nofun
  · intro d s _ hd
    exact (turn_after d s).size_pos hd

theorem completed_before_due (hf : Forward now steps)
    (hm : (c.run steps).historyDirty = true) :
    c.Throughout (fun d s => d.upkeep.completes s.call →
      s.readings.uptime + c.tuning.historySaveDelay.toNat ≤ (c.run steps).historySaveDue)
      steps := by
  induction steps generalizing c now with
  | nil => trivial
  | cons s steps ih =>
    have hrest := ih hf.2 hm
    rw [tuning_after] at hrest
    refine ⟨?_, hrest⟩
    intro hc
    have hdue : (c.after s).historySaveDue =
        s.readings.uptime + c.tuning.historySaveDelay.toNat := ((turn_after c s).of_completes hc).2
    -- From the shot on, the due time never falls behind, and whatever marks the history anew starts
    -- a quiet period of its own.
    refine (hf.2.run (c := c.after s) (Q := fun _ _ => True) (P := fun now d =>
      d.tuning = c.tuning ∧ s.readings.uptime ≤ now ∧ (d.historyDirty = true →
        s.readings.uptime + c.tuning.historySaveDelay.toNat ≤ d.historySaveDue))
      throughout_true ⟨tuning_after c s, Nat.le_refl _, fun _ => Nat.le_of_eq hdue.symm⟩
      ?_).2.2 hm
    rintro now d t ht - ⟨htuning, hnow, hwait⟩
    refine ⟨(tuning_after d t).trans htuning, Nat.le_trans hnow ht, ?_⟩
    intro hd
    rcases (turn_after d t).marked hd with ⟨hdirty, hle⟩ | ⟨hquiet, -⟩
    · exact Nat.le_trans (hwait hdirty) hle
    · rw [show (d.after t).historySaveDue = d.upkeep.quietUntil t.readings from hquiet,
        Upkeep.quietUntil, show d.upkeep.tuning = c.tuning from htuning]
      omega

theorem due_after_retry (hf : Forward now steps) (hm : c.historyDirty = true)
    (hw : due ≤ c.historySaveDue)
    (hq : c.Throughout (fun d s => ¬d.upkeep.completes s.call ∧ s.call ≠ .boot) steps)
    (hr : (c.run steps).historyDirty = true) : due ≤ (c.run steps).historySaveDue := by
  -- The mark may fall and come back by a rating, but only when the time has passed.
  refine (hf.run (P := fun now d => (d.historyDirty = true → due ≤ d.historySaveDue) ∧
    (d.historyDirty = false → d.history.size = 0 ∨ due ≤ now)) hq
    ⟨fun _ => hw, fun hn => nomatch hm.symm.trans hn⟩ ?_).1 hr
  rintro now d s hs ⟨hc, hb⟩ ⟨hmarked, hclean⟩
  constructor
  · intro hd
    rcases (turn_after d s).marked hd with ⟨hdirty, hle⟩ | ⟨hquiet, hmark⟩
    · exact Nat.le_trans (hmarked hdirty) hle
    · obtain ⟨hdirty, _, _, _, _, hrate⟩ := hmark.resolve_left hc
      have hsize : d.history.size ≠ 0 := Nat.ne_zero_of_lt (ShotHistory.size_rate hrate).2
      have hnow := (hclean hdirty).resolve_left hsize
      rw [show (d.after s).historySaveDue = d.upkeep.quietUntil s.readings from hquiet,
        Upkeep.quietUntil]
      omega
  · intro hd
    rcases (turn_after d s).unmarked hd hb with ⟨hdirty, hsame⟩ | hsize | ⟨hdirty, hle⟩
    · have hsize : (d.after s).history.size = d.history.size := congrArg ShotHistory.size hsame
      rw [hsize]
      exact (hclean hdirty).imp_right (Nat.le_trans · hs)
    · exact .inl hsize
    · exact .inr (Nat.le_trans (hmarked hdirty) hle)

theorem clean_run (hc : c.historyDirty = false)
    (hq : c.Throughout (fun d s => ¬d.upkeep.completes s.call ∧ ¬d.upkeep.rates s.call) steps) :
    (c.run steps).historyDirty = false := by
  induction steps generalizing c with
  | nil => exact hc
  | cons s steps ih =>
    refine ih ?_ hq.2
    rw [← Bool.not_eq_true]
    intro hm
    rcases (turn_after c s).marked hm with ⟨hdirty, -⟩ | ⟨-, h | ⟨-, h⟩⟩
    · cases hc.symm.trans hdirty
    · exact hq.1.1 h
    · exact hq.1.2 h

def historyAttempts (c : Controller) (s : Step) : List Attempt :=
  (c.after s).medium.attempts.filter fun t => t.access.touches ShotHistory.address

def storesHistory (c : Controller) (s : Step) : Prop :=
  ∃ t ∈ c.historyAttempts s, t.failure = none

theorem exists_service (ht : s.call = .tick) : ∃ k,
    (c.facing s).upkeep.Spares k ∧ (c.after s).upkeep = k.service s.readings := by
  have h := turn_after c s
  rw [ht] at h
  exact h.of_tick

theorem historyAttempts_of_not_due (ht : s.call = .tick)
    (h : c.upkeep.isDue s.readings = false ∨ c.upkeep.hasRoom s.readings = false) :
    c.historyAttempts s = [] := by
  obtain ⟨k, hs, hk⟩ := exists_service (c := c) ht
  have hm : (c.after s).medium = k.medium := by
    rw [show (c.after s).medium = (k.service s.readings).medium from congrArg Upkeep.medium hk]
    apply Upkeep.medium_service
    rwa [hs.isDue, hs.hasRoom]
  rw [historyAttempts, hm]
  exact hs.medium.attempts

theorem historyAttempts_of_due (ht : s.call = .tick) (hd : c.upkeep.isDue s.readings = true)
    (hr : c.upkeep.hasRoom s.readings = true) (hn : 0 < c.history.size) : ∃ failure,
      c.historyAttempts s = [⟨.write ShotHistory.address c.history.toBytes, failure⟩] ∧
      (c.after s).historyDirty = failure.isSome ∧
      (c.medium.store.available = true →
        s.refuses (.write ShotHistory.address c.history.toBytes) = none →
          failure = none ∧ (c.after s).medium.store.lookup ShotHistory.address.path =
            some c.history.toBytes) := by
  obtain ⟨k, hs, hk⟩ := exists_service (c := c) ht
  have hm : (c.after s).medium = (k.service s.readings).medium := congrArg Upkeep.medium hk
  have hdirty : (c.after s).historyDirty = (k.service s.readings).dirty := congrArg Upkeep.dirty hk
  have hhistory : k.history = c.history := hs.history
  have havailable : k.medium.store.available = c.medium.store.available := hs.medium.available
  have hrefuses : k.medium.refuses = s.refuses := hs.medium.refuses
  obtain ⟨failure, hattempts, hmark, hstored⟩ := Upkeep.attempts_service
    ((hs.isDue _).trans hd) ((hs.hasRoom _).trans hr) (by rwa [hhistory])
  rw [hhistory] at hattempts hstored
  rw [havailable, hrefuses] at hstored
  refine ⟨failure, ?_, hdirty.trans hmark, ?_⟩
  · have hnone : k.medium.attempts.filter (fun t => t.access.touches ShotHistory.address) = [] :=
      hs.medium.attempts
    rw [historyAttempts, hm, hattempts, List.filter_append, hnone]
    simp [Access.touches]
  · rwa [hm]

theorem historySaveDue_of_retry (ht : s.call = .tick) (hd : c.upkeep.isDue s.readings = true)
    (hm : (c.after s).historyDirty = true) : (c.after s).historySaveDue =
      s.readings.uptime + c.tuning.historyRetryInterval.toNat := by
  obtain ⟨k, hs, hk⟩ := exists_service (c := c) ht
  have hdirty : (k.service s.readings).dirty = true :=
    (congrArg Upkeep.dirty hk).symm.trans hm
  have hdue := (Upkeep.due_service hdirty).2
  rw [if_pos ((hs.isDue _).trans hd), Upkeep.retryAt, hs.tuning] at hdue
  exact (congrArg Upkeep.due hk).trans hdue

theorem storesHistory_iff (ht : s.call = .tick) (hd : c.upkeep.isDue s.readings = true)
    (hn : 0 < c.history.size) : c.storesHistory s ↔ (c.after s).historyDirty = false := by
  cases hr : c.upkeep.hasRoom s.readings with
  | true =>
    obtain ⟨failure, hattempts, hmark, -⟩ := historyAttempts_of_due ht hd hr hn
    rw [storesHistory, hattempts, hmark]
    cases failure <;> simp
  | false =>
    obtain ⟨k, hs, hk⟩ := exists_service (c := c) ht
    have hdirty : (c.after s).historyDirty = true := by
      rw [Upkeep.service_of_no_room ((hs.isDue _).trans hd) ((hs.hasRoom _).trans hr)] at hk
      exact (congrArg Upkeep.dirty hk).trans
        (hs.dirty.trans (Bool.and_eq_true_iff.mp hd).1)
    rw [storesHistory, historyAttempts_of_not_due ht (.inr hr), hdirty]
    simp

theorem completed_before_attempt {r : Readings} (hf : Forward now steps)
    (hd : (c.run steps).upkeep.isDue r = true) :
    c.Throughout (fun d s => d.upkeep.completes s.call →
      s.readings.uptime + c.tuning.historySaveDelay.toNat ≤ r.uptime) steps := by
  obtain ⟨hdirty, hle⟩ := Bool.and_eq_true_iff.mp hd
  have hdue : (c.run steps).historySaveDue ≤ r.uptime := of_decide_eq_true hle
  exact (completed_before_due hf hdirty).mono fun d s h hc => Nat.le_trans (h hc) hdue

theorem retried_after_interval {r : Readings} (ht : s.call = .tick)
    (hd : c.upkeep.isDue s.readings = true) (hn : 0 < c.history.size) (hs : ¬c.storesHistory s)
    (hf : Forward s.readings.uptime steps)
    (hq : (c.after s).Throughout (fun d t => ¬d.upkeep.completes t.call ∧ t.call ≠ .boot) steps)
    (hr : ((c.after s).run steps).upkeep.isDue r = true) :
    s.readings.uptime + c.tuning.historyRetryInterval.toNat ≤ r.uptime := by
  have hmark : (c.after s).historyDirty = true := by
    rw [← Bool.not_eq_false, ← storesHistory_iff ht hd hn]
    exact hs
  obtain ⟨hdirty, hle⟩ := Bool.and_eq_true_iff.mp hr
  have hdue := Nat.le_of_eq (historySaveDue_of_retry ht hd hmark).symm
  exact Nat.le_trans (due_after_retry hf hmark hdue hq hdirty) (of_decide_eq_true hle)

theorem isDue_of_storesHistory (ht : s.call = .tick) (hs : c.storesHistory s) :
    c.upkeep.isDue s.readings = true := by
  rw [← Bool.not_eq_false]
  intro hd
  obtain ⟨t, hmem, -⟩ := hs
  rw [historyAttempts_of_not_due ht (.inl hd)] at hmem
  cases hmem

theorem historyAttempts_of_clean (ht : s.call = .tick) (hc : c.historyDirty = false) :
    c.historyAttempts s = [] := by
  apply historyAttempts_of_not_due ht
  left
  rw [Upkeep.isDue, show c.upkeep.dirty = false from hc]
  rfl

/-- How the store is spared. A tick leaves the stored history alone unless it is marked and due and
memory is free, and then it tries once to write it as it is. It is due at the earliest when the last
shot has been quiet for long enough. An attempt that failed, or was put off, is not repeated before
its time unless a shot or a fresh start comes between; one that succeeded is not repeated until a
shot or a rating. -/
theorem history_is_written_sparingly (c : Controller) (r : Readings) {pre rest : List Step}
    {t : Step} (hf : Forward r.uptime (pre ++ t :: rest)) (ht : t.call = .tick) :
    let d := (c.boot r).run pre
    let due := d.upkeep.isDue t.readings = true
    let room := d.upkeep.hasRoom t.readings = true
    (¬(due ∧ room) → d.historyAttempts t = []) ∧
    (due ∧ room → 0 < d.history.size ∧ ∃ failure,
      d.historyAttempts t = [⟨.write ShotHistory.address d.history.toBytes, failure⟩]) ∧
    (due → (c.boot r).Throughout (fun e s => e.upkeep.completes s.call →
      s.readings.uptime + c.tuning.historySaveDelay.toNat ≤ t.readings.uptime) pre) ∧
    (due → ¬d.storesHistory t → ∀ mid u post, rest = mid ++ u :: post →
      (d.after t).Throughout (fun e s => ¬e.upkeep.completes s.call ∧ s.call ≠ .boot) mid →
      ((d.after t).run mid).upkeep.isDue u.readings = true →
        t.readings.uptime + c.tuning.historyRetryInterval.toNat ≤ u.readings.uptime) ∧
    (d.storesHistory t → (d.after t).historyDirty = false ∧
      ∀ mid u post, rest = mid ++ u :: post → u.call = .tick →
        (d.after t).Throughout
          (fun e s => ¬e.upkeep.completes s.call ∧ ¬e.upkeep.rates s.call) mid →
        ((d.after t).run mid).historyAttempts u = []) ∧
    (due ∧ room → d.medium.store.available = true →
      t.refuses (.write ShotHistory.address d.history.toBytes) = none →
        (d.after t).historyDirty = false ∧
        (d.after t).medium.store.lookup ShotHistory.address.path = some d.history.toBytes) := by
  intro d due room
  obtain ⟨hpre, hrest⟩ := forward_append.mp hf
  have htuning : d.tuning = c.tuning := tuning_run (c.boot r) pre
  have hsize (h : due) : 0 < d.history.size := size_pos_run c r pre (Bool.and_eq_true_iff.mp h).1
  refine ⟨?_, ?_, completed_before_attempt hpre, ?_, ?_, ?_⟩
  · intro h
    apply historyAttempts_of_not_due ht
    rw [← Bool.not_eq_true, ← Bool.not_eq_true]
    exact Decidable.not_and_iff_not_or_not.mp h
  · rintro ⟨hd, hr⟩
    obtain ⟨failure, hattempts, -⟩ := historyAttempts_of_due ht hd hr (hsize hd)
    exact ⟨hsize hd, failure, hattempts⟩
  · rintro hd hs mid u post rfl hq hu
    rw [← htuning]
    exact retried_after_interval ht hd (hsize hd) hs (forward_append.mp hrest.2).1 hq hu
  · intro hs
    have hd := isDue_of_storesHistory ht hs
    have hclean := (storesHistory_iff ht hd (hsize hd)).mp hs
    refine ⟨hclean, ?_⟩
    rintro mid u post rfl hu hq
    exact historyAttempts_of_clean hu (clean_run hclean hq)
  · rintro ⟨hd, hr⟩ ha hw
    obtain ⟨failure, -, hmark, hstored⟩ := historyAttempts_of_due ht hd hr (hsize hd)
    obtain ⟨rfl, hlookup⟩ := hstored ha hw
    exact ⟨hmark, hlookup⟩

theorem history_is_written_after_refusal :
    let refuses : Access → Option StorageError := Fault.refusal [⟨.write, "history/shots", .io⟩]
    let d := ((blank default (.reliable .empty)).boot ⟨0, none, 0⟩).run [
      ⟨⟨0, none, 0⟩, fun _ => none, .command .startShot⟩,
      ⟨⟨25000, none, 0⟩, fun _ => none, .command .endShot⟩,
      ⟨⟨31000, none, 100000⟩, refuses, .tick⟩]
    let retry : Step := ⟨⟨33000, none, 100000⟩, fun _ => none, .tick⟩
    (∃ failure, d.historyAttempts retry =
      [⟨.write ShotHistory.address d.history.toBytes, failure⟩]) ∧
    (d.after retry).medium.store.lookup ShotHistory.address.path = some d.history.toBytes := by
  obtain ⟨-, hattempts, -, -, -, hstored⟩ := @history_is_written_sparingly
    (blank default (.reliable .empty)) ⟨0, none, 0⟩ [
      ⟨⟨0, none, 0⟩, fun _ => none, .command .startShot⟩,
      ⟨⟨25000, none, 0⟩, fun _ => none, .command .endShot⟩,
      ⟨⟨31000, none, 100000⟩, Fault.refusal [⟨.write, "history/shots", .io⟩], .tick⟩] []
    ⟨⟨33000, none, 100000⟩, fun _ => none, .tick⟩ (by simp [Forward]) rfl
  have hdue : (((blank default (.reliable .empty)).boot ⟨0, none, 0⟩).run [
      ⟨⟨0, none, 0⟩, fun _ => none, .command .startShot⟩,
      ⟨⟨25000, none, 0⟩, fun _ => none, .command .endShot⟩,
      ⟨⟨31000, none, 100000⟩, Fault.refusal [⟨.write, "history/shots", .io⟩], .tick⟩]).upkeep.isDue
      ⟨33000, none, 100000⟩ = true := by decide +kernel
  exact ⟨(hattempts ⟨hdue, by decide +kernel⟩).2, (hstored ⟨hdue, by decide +kernel⟩
    (by decide +kernel) rfl).2⟩

end Controller

end Espresso
