import Espresso.Controller.Snapshot
import Espresso.Notice.Line
import Espresso.Proofs.Controller.Validity
import Espresso.Proofs.Settings.Secrecy

namespace Espresso

namespace Event

variable {e e' : Event}

def blinded : Event → Event
  | settingsChanged s => settingsChanged s.blinded
  | e => e

theorem line_blinded (e : Event) : e.blinded.line = e.line := by
  cases e <;> rfl

theorem line_eq_of_blinded (h : e.blinded = e'.blinded) : e.line = e'.line := by
  rw [← line_blinded e, h, line_blinded]

end Event

namespace Controller

variable {c d : Controller}

def blinded (c : Controller) : Controller := { c with settings := c.settings.blinded }

theorem settingsSnapshot_blinded (c : Controller) :
    c.blinded.settingsSnapshot = c.settingsSnapshot :=
  c.settings.toJson_blinded

theorem sectionSnapshot_blinded (c : Controller) (name : String) :
    c.blinded.sectionSnapshot name = c.sectionSnapshot name := by
  have hshown : c.blinded.settings.sectionJson = c.settings.sectionJson :=
    funext c.settings.sectionJson_blinded
  simp only [sectionSnapshot, hshown]
  rfl

theorem snapshot_blinded (c : Controller) (r : Readings) :
    c.blinded.snapshot r = c.snapshot r := by
  have hshown : c.blinded.settings.toJson = c.settings.toJson := c.settings.toJson_blinded
  simp only [snapshot, hshown]
  rfl

theorem same_settings_of_snapshot (hc : c.settings.Valid) (hd : d.settings.Valid)
    (h : c.settings.blinded.same d.settings.blinded = false) :
    c.settingsSnapshot.same d.settingsSnapshot = false := by
  rw [Bool.eq_false_iff] at h ⊢
  exact fun hsame => h (Settings.same_of_toJson hc hd hsame)

/-- Controllers and events that agree but for the secrets are shown alike, and any other difference
between settings is shown. -/
theorem only_secrets_are_hidden :
    (∀ c d : Controller, c.blinded = d.blinded →
      (∀ r, c.snapshot r = d.snapshot r) ∧
      c.settingsSnapshot = d.settingsSnapshot ∧
      (∀ name, c.sectionSnapshot name = d.sectionSnapshot name) ∧
      c.statsSnapshot = d.statsSnapshot ∧
      (∀ r, c.stateSnapshot r = d.stateSnapshot r) ∧
      c.historySnapshot = d.historySnapshot) ∧
    (∀ e e' : Event, e.blinded = e'.blinded → e.line = e'.line) ∧
    ∀ (b₁ b₂ : Controller) (r₁ r₂ : Readings) (steps₁ steps₂ : List Step),
      let c := (b₁.boot r₁).run steps₁
      let d := (b₂.boot r₂).run steps₂
      c.settings.blinded.same d.settings.blinded = false →
        c.settingsSnapshot.same d.settingsSnapshot = false := by
  refine ⟨?_, fun e e' => Event.line_eq_of_blinded, ?_⟩
  · intro c d h
    refine ⟨?_, ?_, ?_, ?_, ?_, ?_⟩
    · intro r
      rw [← snapshot_blinded c, h, snapshot_blinded]
    · rw [← settingsSnapshot_blinded c, h, settingsSnapshot_blinded]
    · intro name
      rw [← sectionSnapshot_blinded c, h, sectionSnapshot_blinded]
    · exact (congrArg statsSnapshot h :)
    · intro r
      exact (congrArg (stateSnapshot · r) h :)
    · exact (congrArg historySnapshot h :)
  · intro b₁ b₂ r₁ r₂ steps₁ steps₂ c d h
    exact same_settings_of_snapshot (valid_run b₁ r₁ steps₁) (valid_run b₂ r₂ steps₂) h

theorem only_secrets_are_hidden_wifi_password :
    let start := blank default (.reliable .empty)
    let patch (name : String) (fields : Json.Members) : Step :=
      ⟨⟨0, none, 0⟩, fun _ => none, .applySection name (.object fields)⟩
    let hiddenSteps := [patch "network" [("wifiPassword", .text "swordfish")]]
    let shownSteps := [patch "temperature" [("brewSetpoint", .int 95)]]
    let c := (start.boot ⟨0, none, 0⟩).run hiddenSteps
    let d := { c with settings :=
      { c.settings with network := { c.settings.network with wifiPassword := "12345678" } } }
    let warm := (start.boot ⟨0, none, 0⟩).run shownSteps
    c.settings.network.wifiPassword = "swordfish" ∧ c.blinded = d.blinded ∧
    c.snapshot ⟨9, none, 0⟩ = d.snapshot ⟨9, none, 0⟩ ∧
    (Event.settingsChanged c.settings).line = (Event.settingsChanged d.settings).line ∧
    warm.settings.blinded.same c.settings.blinded = false ∧
    warm.settingsSnapshot.same c.settingsSnapshot = false := by
  intro start patch hiddenSteps shownSteps c d warm
  have hset : c.settings.network.wifiPassword = "swordfish" := by decide +kernel
  have hwarm : warm.settings.blinded.same c.settings.blinded = false := by decide +kernel
  obtain ⟨hshown, hline, htold⟩ := only_secrets_are_hidden
  clear_value start hiddenSteps shownSteps
  exact ⟨hset, rfl, (hshown c d rfl).1 _, hline _ _ rfl, hwarm, htold _ _ _ _ _ _ hwarm⟩

end Controller

end Espresso
