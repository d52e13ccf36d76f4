import Espresso.Proofs.Controller.Silence
import Espresso.Proofs.Controller.Standing
import Espresso.Proofs.Settings.Edit

namespace Espresso

namespace Settings

def typeNamed? (v : Json) : Option MachineType := (v.get? "machineType").bind Json.named?

def lastTypeNamed? (document : Json) : Option MachineType :=
  ((documentsFor .machineInfo document).filterMap typeNamed?).getLast?

variable {v document : Json} {t : MachineType}

theorem machineType_patch (c : MachineInfo) (v : Json) :
    (MachineInfo.schema.patch c v).machineType = (typeNamed? v).getD c.machineType := by
  have hpatch : (MachineInfo.schema.patch c v).machineType =
      ((v.get? "machineType").bind (Kind.choice : Kind MachineType).accept).getD c.machineType :=
    Section.machineInfo.separate.get_patch (f := MachineInfo.schema.fields[3])
      (List.getElem_mem _) rfl c v
  rw [hpatch, typeNamed?]
  cases v.get? "machineType" <;> rfl

theorem machineType_foldl_patch (documents : List Json) (c : MachineInfo) :
    (documents.foldl MachineInfo.schema.patch c).machineType =
      (documents.filterMap typeNamed?).getLast?.getD c.machineType := by
  induction documents generalizing c with
  | nil => rfl
  | cons v documents ih =>
    rw [List.foldl_cons, ih, machineType_patch]
    cases h : typeNamed? v with
    | none => rw [List.filterMap_cons_none h]; rfl
    | some t => rw [List.filterMap_cons_some h, List.getLast?_cons]; rfl

theorem machineType_patchAll (s : Settings) (document : Json) :
    (s.patchAll document).machineInfo.machineType =
      (lastTypeNamed? document).getD s.machineInfo.machineType := by
  have h : (s.patchAll document).machineInfo = _ := get_patchAll_eq s .machineInfo document
  rw [h]
  exact machineType_foldl_patch ..

theorem machineType_patch_section (s : Settings) (n : Section) (fields : Json) :
    (s.patch n fields).machineInfo.machineType =
      (if n = .machineInfo then typeNamed? fields else none).getD s.machineInfo.machineType := by
  by_cases hn : n = .machineInfo
  · subst hn
    rw [if_pos rfl]
    exact machineType_patch ..
  · have h : (s.patch n fields).get .machineInfo = s.get .machineInfo :=
      get_set_of_ne s (Ne.symm hn) _
    rw [if_neg hn]
    exact congrArg MachineInfo.machineType h

theorem typeNamed_eq_none (h : count .machineInfo v = 0) : typeNamed? v = none := by
  change MachineInfo.schema.count v = 0 at h
  rw [Schema.count] at h
  rw [typeNamed?, Json.get?]
  cases hv : v.members? with
  | none => rfl
  | some members =>
    rw [hv] at h
    have hfield : MachineInfo.schema.fields[3] ∈ MachineInfo.schema.fields := List.getElem_mem _
    exact Option.not_isSome_iff_eq_none.mp (List.countP_eq_zero.mp h _ hfield)

theorem lastTypeNamed_eq_none (h : .machineInfo ∉ touched document) :
    lastTypeNamed? document = none := by
  rw [lastTypeNamed?, List.getLast?_eq_none_iff, List.filterMap_eq_nil_iff]
  intro v hv
  obtain ⟨⟨name, fields⟩, hp, hentry⟩ := List.mem_filterMap.mp hv
  obtain ⟨hname, hsome⟩ := (Option.ite_none_right_eq_some ..).mp hentry
  obtain rfl := Option.some.inj hsome
  apply typeNamed_eq_none
  by_contra hcount
  exact h (mem_touched hp (Section.ofName?_eq_some.mpr hname) hcount)

end Settings

def Command.sparesType : Command → Bool
  | .boardBoot _ _ _ | .setMachineType _ _ | .factoryReset => false
  | _ => true

namespace Controller

def InStep (c : Controller) : Prop := c.machine.live.machineType = c.configured

/-- The ways in which a step configures a type. A report does so only while none is configured, and
so does a request that is not forced. -/
inductive Configures (c : Controller) (s : Step) : MachineType → Prop where
  | report {version : String} {resetReason : UInt8} {t : MachineType} :
    s.call.operation? = some (.boardBoot version resetReason t) → c.configured = .unknown →
      c.Configures s t
  | request {t : MachineType} :
    s.call.operation? = some (.setMachineType t false) → c.configured = .unknown → c.Configures s t
  | forced {t : MachineType} :
    s.call.operation? = some (.setMachineType t true) → c.Configures s t
  | update {fields : Json} {t : MachineType} :
    s.call = .applySection "machineInfo" fields → Settings.typeNamed? fields = some t →
      c.Configures s t
  | updates {document : Json} {t : MachineType} :
    s.call = .applySettings document → Settings.lastTypeNamed? document = some t →
      c.Configures s t
  | reset : s.call = .resetSettings → c.Configures s .unknown
  | factoryReset : s.call.operation? = some .factoryReset → c.Configures s .unknown
  | boot : s.call = .boot →
    c.Configures s (Settings.load (c.facing s).medium).machineInfo.machineType

variable {c d : Controller} {s : Step}

theorem InStep.of_types (hc : c.InStep) (h : d.types = c.types) : d.InStep :=
  (congrArg Types.shown h).trans (hc.trans (congrArg Types.configured h).symm)

theorem types_perform (c : Controller) (r : Readings) {x : Command} (hx : x.sparesType = true) :
    (c.perform r x).2.types = c.types := by
  cases x with
  | endShot =>
    rw [perform, endShot, Machine.endShot]
    split <;> rfl
  | rateShot index rating =>
    rw [perform, rateShot]
    cases c.history.rate index rating with
    | error e => rfl
    | ok history => exact congrArg Standing.types (standing_markHistory { c with history } r)
  | clearHistory => rfl
  | boardBoot version resetReason t => cases hx
  | setMachineType t force => cases hx
  | factoryReset => cases hx
  | _ => exact congrArg Standing.types (standing_perform c r rfl)

theorem types_call (c : Controller) (r : Readings) {q : Call} (hq : q.isRoutine = true) :
    (c.call r q).2.types = c.types := congrArg Standing.types (standing_call c r hq)

theorem types_attending (c : Controller) (s : Step) : (c.attending s).types = c.types :=
  congrArg Standing.types (standing_attending c s)

theorem configured_attending (c : Controller) (s : Step) :
    (c.attending s).configured = c.configured := congrArg Types.configured (types_attending c s)

theorem inStep_syncType (c : Controller) : c.syncType.InStep := by
  rw [InStep, configured, settings_syncType, syncType, Machine.setType]
  by_cases h : c.machine.live.machineType = c.settings.machineInfo.machineType
  · rw [if_pos h]
    exact h
  · rw [if_neg h]
    rfl

theorem configured_syncType (c : Controller) : c.syncType.configured = c.configured :=
  congrArg (fun s => s.machineInfo.machineType) (settings_syncType c)

theorem configured_adopt (c : Controller) (settings : Settings) (touched : List Section) :
    (c.adopt settings touched).configured = settings.machineInfo.machineType :=
  congrArg (fun k => k.settings.machineInfo.machineType) (core_adopt c settings touched)

theorem InStep.adopt (hc : c.InStep) {settings : Settings} {touched : List Section}
    (h : .machineInfo ∉ touched → settings.machineInfo.machineType = c.configured) :
    (c.adopt settings touched).InStep := by
  unfold Controller.adopt
  dsimp only
  split
  · exact (inStep_syncType _).of_types (congrArg Standing.types (standing_foldl_persist _ touched))
  · next hn =>
    -- The machine need not be told of sections that do not bear its type.
    have hsettings : ({ c with settings } : Controller).InStep := hc.trans (h hn).symm
    exact hsettings.of_types (congrArg Standing.types (standing_foldl_persist _ touched))

theorem configured_setMachineType (c : Controller) (t : MachineType) (force : Bool) :
    (c.setMachineType t force).2.configured =
      if force = true ∨ c.configured = .unknown then t else c.configured := by
  show (Controller.syncType _).configured = _
  rw [configured_syncType]
  by_cases ht : c.configured = t
  · have hkeep : c.settings.machineInfo.machineType = t := ht
    rw [if_pos (by simp [hkeep]), ht, ite_self]
  · have hnew : c.settings.machineInfo.machineType ≠ t := ht
    by_cases hf : force = true ∨ c.configured = .unknown
    · rw [if_neg ?_, if_pos hf]
      · rfl
      · rcases hf with hf | hf
        · simp [hf, hnew]
        · have hunknown : c.settings.machineInfo.machineType = .unknown := hf
          rw [hunknown] at hnew ⊢
          simp [hnew]
    · obtain ⟨hf, hunknown⟩ := not_or.mp hf
      have hknown : c.settings.machineInfo.machineType ≠ .unknown := hunknown
      rw [if_pos (by simp [hf, hknown, hnew]), if_neg (not_or.mpr ⟨hf, hunknown⟩)]

theorem inStep_setMachineType (c : Controller) (t : MachineType) (force : Bool) :
    (c.setMachineType t force).2.InStep := inStep_syncType _

theorem configured_bootBoard (c : Controller) (version : String) (resetReason : UInt8)
    (t : MachineType) : (c.bootBoard version resetReason t).configured =
      if false = true ∨ c.configured = .unknown then t else c.configured :=
  configured_setMachineType _ t false

theorem inStep_boot (c : Controller) (r : Readings) : (c.boot r).InStep := by
  have h (m : Machine) (t : MachineType) : ((m.setType t).getD m).live.machineType = t := by
    unfold Machine.setType
    split
    · assumption
    · rfl
  exact h ..

theorem inStep_resetSettings (c : Controller) : c.resetSettings.2.InStep :=
  (inStep_syncType _).of_types (congrArg Standing.types (standing_publishStored _))

theorem configured_resetSettings (c : Controller) : c.resetSettings.2.configured = .unknown :=
  congrArg (fun k => k.settings.machineInfo.machineType) (core_resetSettings c)

theorem inStep_factoryReset (c : Controller) (r : Readings) : (c.factoryReset r).2.InStep :=
  inStep_syncType _

theorem configured_factoryReset (c : Controller) (r : Readings) :
    (c.factoryReset r).2.configured = .unknown :=
  congrArg (fun k => k.settings.machineInfo.machineType) (core_factoryReset c r)

theorem configured_applySection (c : Controller) (name : String) (fields : Json) :
    (c.counted (c.applySection name fields)).2.configured =
      (if name = "machineInfo" then Settings.typeNamed? fields else none).getD c.configured := by
  obtain ⟨h, hcount⟩ | ⟨n, hn, h⟩ := applySection_cases c name fields <;> rw [h]
  · split
    · next hname =>
      have hinfo : Section.ofName name = .ok .machineInfo := Section.ofName_eq_ok.mpr hname
      rw [Settings.typeNamed_eq_none (hcount _ hinfo)]
      rfl
    · rfl
  · obtain rfl := Section.ofName_eq_ok.mp hn
    have hname : n = .machineInfo ↔ n.name = "machineInfo" :=
      ⟨fun h => congrArg Section.name h, fun h => Section.name_injective h⟩
    rw [configured_adopt, Settings.machineType_patch_section]
    simp only [hname]
    rfl

theorem InStep.applySection (hc : c.InStep) (name : String) (fields : Json) :
    (c.counted (c.applySection name fields)).2.InStep := by
  obtain ⟨h, -⟩ | ⟨n, -, h⟩ := applySection_cases c name fields <;> rw [h]
  · exact hc
  · apply hc.adopt
    intro hn
    rw [Settings.machineType_patch_section, if_neg fun h => hn (List.mem_singleton.mpr h.symm)]
    rfl

theorem configured_applySettings (c : Controller) (document : Json) :
    (c.counted (c.applySettings document)).2.configured =
      (Settings.lastTypeNamed? document).getD c.configured := by
  obtain ⟨h, hnone⟩ | h := applySettings_cases c document <;> rw [h]
  · have hn : Section.machineInfo ∉ Settings.touched document := hnone ▸ List.not_mem_nil
    rw [Settings.lastTypeNamed_eq_none hn]
    rfl
  · rw [configured_adopt, Settings.machineType_patchAll]
    rfl

theorem InStep.applySettings (hc : c.InStep) (document : Json) :
    (c.counted (c.applySettings document)).2.InStep := by
  obtain ⟨h, -⟩ | h := applySettings_cases c document <;> rw [h]
  · exact hc
  · apply hc.adopt
    intro hn
    rw [Settings.machineType_patchAll, Settings.lastTypeNamed_eq_none hn]
    rfl

theorem InStep.perform (hc : c.InStep) (r : Readings) (x : Command) : (c.perform r x).2.InStep := by
  cases hx : x.sparesType with
  | true => exact hc.of_types (types_perform c r hx)
  | false =>
    cases x with
    | boardBoot version resetReason t => exact inStep_setMachineType _ t false
    | setMachineType t force => exact inStep_setMachineType c t force
    | factoryReset =>
      rw [(perform_factoryReset c r).1]
      exact inStep_factoryReset c r
    | _ => cases hx

theorem InStep.call (hc : c.InStep) (r : Readings) (q : Call) : (c.call r q).2.InStep := by
  cases q with
  | command x =>
    show (c.handle r x).2.InStep
    unfold handle
    split
    · exact hc.perform r x
    · exact InStep.perform (c := c.resetIdle r) hc r x
  | direct x => exact hc.perform r x
  | applySection name fields => exact hc.applySection name fields
  | applySettings document => exact hc.applySettings document
  | resetSettings => exact inStep_resetSettings c
  | boot => exact inStep_boot c r
  | _ => exact hc.of_types (types_call c r rfl)

theorem InStep.run (hc : c.InStep) (steps : List Step) : (c.run steps).InStep :=
  run_induction hc fun d s _ hd => InStep.call (c := d.facing s) hd s.readings s.call

theorem Configures.configured_after {t : MachineType} (h : c.Configures s t) :
    (c.after s).configured = t := by
  cases h with
  | report hx hunknown =>
    rw [after_of_operation hx]
    rw [← configured_attending c s] at hunknown
    exact (configured_bootBoard ..).trans (if_pos (.inr hunknown))
  | request hx hunknown =>
    rw [after_of_operation hx]
    rw [← configured_attending c s] at hunknown
    exact (configured_setMachineType ..).trans (if_pos (.inr hunknown))
  | forced hx =>
    rw [after_of_operation hx]
    exact (configured_setMachineType ..).trans (if_pos (.inl rfl))
  | update hq ht =>
    rw [after, hq]
    refine (configured_applySection ..).trans ?_
    rw [if_pos rfl, ht]
    rfl
  | updates hq ht =>
    rw [after, hq]
    refine (configured_applySettings ..).trans ?_
    rw [ht]
    rfl
  | reset hq =>
    rw [after, hq]
    exact configured_resetSettings _
  | factoryReset hx =>
    rw [after_of_operation hx, (perform_factoryReset ..).1]
    exact configured_factoryReset ..
  | boot hq =>
    rw [after, hq]
    rfl

theorem configures_of_operation {x : Command} (hx : s.call.operation? = some x)
    (h : (c.after s).configured ≠ c.configured) : c.Configures s (c.after s).configured := by
  rw [after_of_operation hx] at h ⊢
  cases x with
  | boardBoot version resetReason t =>
    have ht : ((c.attending s).perform s.readings (.boardBoot version resetReason t)).2.configured =
        if false = true ∨ c.configured = .unknown then t else c.configured := by
      rw [← configured_attending c s]
      exact configured_bootBoard ..
    rw [ht] at h ⊢
    obtain ⟨hgiven, -⟩ := ite_ne_right_iff.mp h
    rw [if_pos hgiven]
    exact .report hx (hgiven.resolve_left nofun)
  | setMachineType t force =>
    have ht : ((c.attending s).perform s.readings (.setMachineType t force)).2.configured =
        if force = true ∨ c.configured = .unknown then t else c.configured := by
      rw [← configured_attending c s]
      exact configured_setMachineType ..
    rw [ht] at h ⊢
    obtain ⟨hgiven, -⟩ := ite_ne_right_iff.mp h
    rw [if_pos hgiven]
    cases force with
    | true => exact .forced hx
    | false => exact .request hx (hgiven.resolve_left nofun)
  | factoryReset =>
    rw [(perform_factoryReset ..).1, configured_factoryReset]
    exact .factoryReset hx
  | _ => exact absurd (congrArg Types.configured ((types_perform _ _ rfl).trans (types_attending c s))) h

theorem configures_of_changed (h : (c.after s).configured ≠ c.configured) :
    c.Configures s (c.after s).configured := by
  cases hq : s.call with
  | command x => exact configures_of_operation (congrArg Call.operation? hq) h
  | direct x => exact configures_of_operation (congrArg Call.operation? hq) h
  | applySection name fields =>
    rw [after, hq] at h ⊢
    have hgiven := eq_some_of_changed (configured_applySection (c.facing s) name fields).symm h
    obtain ⟨rfl, ht⟩ := (Option.ite_none_right_eq_some ..).mp hgiven
    exact .update hq ht
  | applySettings document =>
    rw [after, hq] at h ⊢
    exact .updates hq
      (eq_some_of_changed (configured_applySettings (c.facing s) document).symm h)
  | resetSettings =>
    have ht : (c.after s).configured = .unknown := by
      rw [after, hq]
      exact configured_resetSettings _
    rw [ht]
    exact .reset hq
  | boot =>
    rw [after, hq]
    exact .boot hq
  | _ =>
    rw [after, hq] at h
    exact absurd (congrArg Types.configured (types_call (c.facing s) s.readings rfl)) h

/-- The machine always shows the type that is configured, whatever the store refuses. There is no
way to change that type but those of `Configures`, and each of them gives the type it says. -/
theorem one_machine_type (c : Controller) (r : Readings) (steps : List Step) :
    let d := (c.boot r).run steps
    d.machine.live.machineType = d.settings.machineInfo.machineType ∧
    ∀ s : Step,
      ((d.after s).configured ≠ d.configured → d.Configures s (d.after s).configured) ∧
      ∀ t, d.Configures s t → (d.after s).configured = t := by
  intro d
  have hd : d.InStep := (inStep_boot c r).run steps
  exact ⟨hd, fun s => ⟨configures_of_changed, fun t h => h.configured_after⟩⟩

theorem first_report_stands :
    let report (t : MachineType) : Step :=
      ⟨⟨0, none, 0⟩, Fault.refusal [⟨.write, "*", .io⟩], .command (.boardBoot "1.4.2" 1 t)⟩
    let force (t : MachineType) : Step :=
      ⟨⟨0, none, 0⟩, fun _ => none, .command (.setMachineType t true)⟩
    let c := (blank default (.reliable .empty)).boot ⟨0, none, 0⟩
    let d := c.run [report .heatExchanger, report .singleBoiler]
    d.configured = .heatExchanger ∧ d.machine.live.machineType = .heatExchanger ∧
      (d.after (force .singleBoiler)).configured = .singleBoiler := by
  intro report force c d
  obtain ⟨hlive, hways⟩ := one_machine_type (blank default (.reliable .empty)) ⟨0, none, 0⟩
    [report .heatExchanger, report .singleBoiler]
  have hd : d.configured = .heatExchanger := by decide +kernel
  exact ⟨hd, hlive.trans hd, (hways (force .singleBoiler)).2 _ (.forced rfl)⟩

end Controller

end Espresso
