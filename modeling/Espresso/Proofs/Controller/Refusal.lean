import Espresso.Proofs.Controller.Books

namespace Espresso

def Call.isRequest : Call → Bool
  | .command x => !x.isTelemetry
  | _ => false

def Outcome.refusal? : Outcome → Option Error
  | .reply (.error e) => some e
  | .count (.error e) => some e
  | _ => none

namespace Controller

def attending (c : Controller) (s : Step) : Controller :=
  if s.call.isRequest then (c.facing s).resetIdle s.readings else c.facing s

variable {c : Controller} {r : Readings} {s : Step} {x : Command} {e : Error}

theorem attending_eq (c : Controller) (s : Step) : c.attending s = { c with
    engine := if s.call.isRequest then c.engine.resetIdle s.readings.uptime else c.engine
    outbox := []
    medium := { c.medium with refuses := s.refuses, attempts := [] } } := by
  rw [attending]
  split <;> rfl

theorem call_of_operation (hx : s.call.operation? = some x) :
    (c.facing s).call s.readings s.call = answered ((c.attending s).perform s.readings x) := by
  rw [attending]
  cases hq : s.call with
  | command y =>
    rw [hq] at hx
    obtain rfl := Option.some.inj hx
    show answered ((c.facing s).handle s.readings y) = _
    rw [handle, Call.isRequest]
    cases y.isTelemetry <;> rfl
  | direct y =>
    rw [hq] at hx
    obtain rfl := Option.some.inj hx
    rfl
  | _ =>
    rw [hq] at hx
    cases hx

theorem after_of_operation (hx : s.call.operation? = some x) :
    c.after s = ((c.attending s).perform s.readings x).2 :=
  congrArg Prod.snd (call_of_operation hx)

theorem outcome_of_operation (hx : s.call.operation? = some x) :
    c.outcome s = .reply ((c.attending s).perform s.readings x).1 :=
  congrArg Prod.fst (call_of_operation hx)

theorem ifGranted_refused {granted : Except Error Controller}
    (h : (c.ifGranted granted).1 = .error e) : (c.ifGranted granted).2 = c := by
  cases granted with
  | error e => rfl
  | ok d => cases h

theorem not_refused_ifChanged {changed : Option Controller}
    (h : (c.ifChanged changed).1 = .error e) : False := by
  cases changed <;> cases h

theorem perform_refused (hx : x ≠ .factoryReset) (h : (c.perform r x).1 = .error e) :
    (c.perform r x).2 = c := by
  cases x with
  | rateShot index rating => exact ifGranted_refused h
  | addSchedule entry =>
    rw [perform] at h ⊢
    split at h
    · cases h
    · rfl
  | updateSchedule id entry => exact ifGranted_refused h
  | removeSchedule id => exact ifGranted_refused h
  | enableSchedule id enabled => exact ifGranted_refused h
  | autoOff enabled minutes => exact ifGranted_refused h
  | factoryReset => exact absurd rfl hx
  | connectivity peer connected => exact (not_refused_ifChanged h).elim
  | reportState state => exact (not_refused_ifChanged h).elim
  | setMode mode => exact (not_refused_ifChanged h).elim
  | startShot => exact (not_refused_ifChanged h).elim
  | endShot => exact (not_refused_ifChanged h).elim
  | energy amount => exact (not_refused_ifChanged h).elim
  | _ => cases h

theorem operation_refused (hx : s.call.operation? = some x) (hf : x ≠ .factoryReset)
    (h : (c.outcome s).refusal? = some e) : c.after s = c.attending s := by
  rw [after_of_operation hx]
  rw [outcome_of_operation hx] at h
  cases hr : ((c.attending s).perform s.readings x).1 with
  | error e => exact perform_refused hf hr
  | ok reply =>
    rw [hr] at h
    cases h

theorem counted_refused {answer : Except Error (Nat × Controller)}
    (h : (c.counted answer).1.refusal? = some e) : (c.counted answer).2 = c := by
  cases answer with
  | error e => rfl
  | ok p => cases h

/-- A call that is refused leaves everything as it was: all that is held in memory and in the store,
what is marked and when it is due. Nothing is published, and nothing is tried on the store. Only
that a request of a user counts as activity. -/
theorem refused_changes_nothing (c : Controller) {s : Step} {e : Error}
    (hx : s.call.operation? ≠ some .factoryReset) (h : (c.outcome s).refusal? = some e) :
    c.after s = { c with
      engine := if s.call.isRequest then c.engine.resetIdle s.readings.uptime else c.engine
      outbox := []
      medium := { c.medium with refuses := s.refuses, attempts := [] } } := by
  rw [← attending_eq]
  cases hq : s.call with
  | command y =>
    have hy : s.call.operation? = some y := congrArg Call.operation? hq
    exact operation_refused hy (fun hf => hx (hy.trans (congrArg some hf))) h
  | direct y =>
    have hy : s.call.operation? = some y := congrArg Call.operation? hq
    exact operation_refused hy (fun hf => hx (hy.trans (congrArg some hf))) h
  | applySection name fields =>
    rw [outcome, hq] at h
    rw [after, attending, hq]
    exact counted_refused h
  | applySettings document =>
    rw [outcome, hq] at h
    rw [after, attending, hq]
    exact counted_refused h
  | _ =>
    rw [outcome, hq] at h
    cases h

theorem refused_changes_nothing_of_rating :
    let c := ((blank default (.reliable .empty)).boot ⟨0, none, 0⟩).run [
      ⟨⟨0, none, 0⟩, fun _ => none, .command .startShot⟩,
      ⟨⟨25000, none, 0⟩, fun _ => none, .command .endShot⟩]
    let s : Step := ⟨⟨26000, none, 0⟩, fun _ => none, .command (.rateShot 1 4)⟩
    (c.outcome s).refusal? = some (.shotNotFound 1) ∧ c.historyDirty = true ∧
      c.after s = { c with
        engine := c.engine.resetIdle 26000
        outbox := []
        medium := { c.medium with refuses := fun _ => none, attempts := [] } } := by
  intro c s
  have hrefused : (c.outcome s).refusal? = some (.shotNotFound 1) := by decide +kernel
  exact ⟨hrefused, rfl, refused_changes_nothing c nofun hrefused⟩

end Controller

end Espresso
