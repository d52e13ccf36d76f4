import Espresso.Machine.Run

namespace Espresso.Machine

def Act.clears : Act → Bool
  | .setState state => state ≠ .fault
  | _ => false

def Act.endsShot : Act → Bool
  | .endShot _ => true
  | _ => false

theorem endShot_of_active {m : Machine} (h : m.live.shotActive = true) (now : Nat) :
    (m.act (.endShot now)).live.state = .ready ∧
      (m.act (.endShot now)).live.shotActive = false := by
  simp [act, endShot, h]

theorem act_endShot_of_inactive {m : Machine} (h : m.live.shotActive = false) (now : Nat) :
    m.act (.endShot now) = m := by
  simp [act, endShot, h]

theorem fault_act {m : Machine} {a : Act} (hm : m.live.state = .fault) (hc : a.clears = false)
    (he : m.live.shotActive = false ∨ a.endsShot = false) :
    (m.act a).live.state = .fault ∧ (m.act a).live.shotActive = m.live.shotActive := by
  cases a with
  | observe now sample => cases sample <;> exact ⟨hm, rfl⟩
  | setState state =>
    have hs : state = .fault := by simpa [Act.clears] using hc
    simp [act, setState, hm, hs]
  | setMode mode =>
    simp only [act, setMode]
    split <;> exact ⟨hm, rfl⟩
  | setConnected peer connected =>
    simp only [act, setConnected]
    split
    · exact ⟨hm, rfl⟩
    · cases peer <;> exact ⟨hm, rfl⟩
  | setType machineType =>
    simp only [act, setType]
    split <;> exact ⟨hm, rfl⟩
  | setBoard version resetReason => exact ⟨hm, rfl⟩
  | setUptime now => exact ⟨hm, rfl⟩
  | startShot now timestamp otherDose => simp [act, startShot, hm]
  | endShot now =>
    have hi : m.live.shotActive = false := he.resolve_right Bool.noConfusion
    rw [act_endShot_of_inactive hi]
    exact ⟨hm, rfl⟩

theorem fault_run {m : Machine} {acts : List Act} (hm : m.live.state = .fault)
    (hc : ∀ a ∈ acts, a.clears = false)
    (he : m.live.shotActive = false ∨ ∀ a ∈ acts, a.endsShot = false) :
    (m.run acts).live.state = .fault ∧ (m.run acts).live.shotActive = m.live.shotActive := by
  induction acts generalizing m with
  | nil => exact ⟨hm, rfl⟩
  | cons a acts ih =>
    obtain ⟨hstate, hactive⟩ := fault_act hm (hc a (List.mem_cons_self ..))
      (he.imp_right fun h => h a (List.mem_cons_self ..))
    rw [run_cons, ← hactive]
    apply ih hstate
    · intro b hb
      exact hc b (List.mem_cons_of_mem _ hb)
    · rw [hactive]
      exact he.imp_right fun h b hb => h b (List.mem_cons_of_mem _ hb)

/-- A machine in fault stays there until its control board reports another state. The one exception
is a shot that was running when the fault came: its end makes the machine ready. -/
theorem fault_until_report (m : Machine) (acts : List Act) (hm : m.live.state = .fault)
    (hc : ∀ a ∈ acts, a.clears = false) :
    (m.live.shotActive = false ∨ (∀ a ∈ acts, a.endsShot = false) →
      (m.run acts).live.state = .fault) ∧
    ∀ pre now post, acts = pre ++ .endShot now :: post → (∀ a ∈ pre, a.endsShot = false) →
      (m.run pre).live.state = .fault ∧ ((m.run pre).act (.endShot now)).live.state =
        if m.live.shotActive then .ready else .fault := by
  refine ⟨fun he => (fault_run hm hc he).1, ?_⟩
  rintro pre now post rfl hpre
  have hclears : ∀ a ∈ pre, a.clears = false := fun a ha => hc a (List.mem_append_left _ ha)
  obtain ⟨hstate, hactive⟩ := fault_run hm hclears (.inr hpre)
  refine ⟨hstate, ?_⟩
  rw [← hactive]
  split
  · next h => exact (endShot_of_active h now).1
  · next h => rw [act_endShot_of_inactive (by simpa using h), hstate]

theorem fault_until_report_idle :
    let m := initial.run [.setState .ready, .setState .fault]
    m.live.state = .fault ∧
      (m.run [.startShot 10 0 18, .setMode .eco, .endShot 20]).live.state = .fault := by
  refine ⟨rfl, (fault_until_report (initial.run [.setState .ready, .setState .fault])
    [.startShot 10 0 18, .setMode .eco, .endShot 20] rfl ?_).1 (.inl rfl)⟩
  simp [Act.clears]

theorem fault_left_by_endShot :
    let m := initial.run [.startShot 0 0 18, .setState .fault]
    m.live.state = .fault ∧ (m.run [.endShot 1000]).live.state = .ready ∧
      ∀ a ∈ [Act.endShot 1000], a.clears = false := by
  refine ⟨rfl, rfl, ?_⟩
  simp [Act.clears]

end Espresso.Machine
