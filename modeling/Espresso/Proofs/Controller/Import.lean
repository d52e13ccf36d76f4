import Espresso.Proofs.Controller.Silence
import Espresso.Proofs.Controller.Validity
import Espresso.Proofs.Settings.Export
import Espresso.Proofs.Settings.Saving

namespace Espresso

def Event.live? : Event → Option LiveState
  | .stateChanged s => some s
  | _ => none

def Outcome.applies : Outcome → Bool
  | .count (.ok n) => n ≠ 0
  | _ => false

namespace Json

theorem find?_of_perm {members calls : Members} (h : members.Perm calls)
    (hn : (members.map Prod.fst).Nodup) (key : String) : find? key calls = find? key members := by
  have hcalls : (calls.map Prod.fst).Nodup := (h.map Prod.fst).nodup_iff.mp hn
  have hfind : (find? key members).toList.Perm (find? key calls).toList := by
    rw [← filterMap_eq_find? hn, ← filterMap_eq_find? hcalls]
    exact h.filterMap _
  cases hm : find? key members <;> cases hc : find? key calls <;> simp_all

end Json

namespace Settings

variable {s : Settings} {name : String} {fields : Json} {members calls : Json.Members}
  {n : Section}

def taken? (name : String) (fields : Json) : Option Section :=
  (Named.ofName? name).filter fun n => count n fields ≠ 0

theorem taken?_eq_some :
    taken? name fields = some n ↔ name = n.name ∧ count n fields ≠ 0 := by
  rw [taken?, Option.filter_eq_some_iff, Section.ofName?_eq_some, decide_eq_true_eq]

theorem touched_cons : touched (.object ((name, fields) :: members)) =
    (taken? name fields).toList ++ touched (.object members) := by
  have htouched (members : Json.Members) :
      touched (.object members) = members.filterMap fun p => taken? p.1 p.2 := rfl
  rw [htouched, htouched, List.filterMap_cons]
  cases taken? name fields <;> rfl

theorem name_of_mem_touched (h : n ∈ touched (.object members)) : n.name ∈ members.map Prod.fst := by
  obtain ⟨⟨name, fields⟩, hp, hn⟩ := List.mem_filterMap.mp h
  obtain ⟨rfl, -⟩ := taken?_eq_some.mp hn
  exact List.mem_map_of_mem hp

theorem nodup_touched (h : (members.map Prod.fst).Nodup) : (touched (.object members)).Nodup := by
  refine List.Pairwise.filterMap _ ?_ (List.pairwise_map.mp h)
  rintro ⟨name, fields⟩ ⟨name', fields'⟩ hne n hn k hk rfl
  exact hne ((taken?_eq_some.mp hn).1.trans (taken?_eq_some.mp hk).1.symm)

theorem patch_of_count_eq_zero (hs : s.Valid) (h : count n fields = 0) : s.patch n fields = s := by
  apply ext_get
  · intro k
    by_cases hk : k = n
    · subst hk
      rw [patch, get_set]
      exact Schema.patch_of_count_eq_zero (hs k) h
    · rw [patch, get_set_of_ne s hk]
  · exact schedule_set ..

theorem patchAll_cons_of_taken (h : taken? name fields = some n) :
    s.patchAll (.object ((name, fields) :: members)) =
      (s.patch n fields).patchAll (.object members) := by
  have hn : (Named.ofName? name : Option Section) = some n :=
    Section.ofName?_eq_some.mpr (taken?_eq_some.mp h).1
  simp only [patchAll, Json.members?, Option.getD_some, List.foldl_cons, hn]

theorem patchAll_cons_of_untaken (hs : s.Valid) (h : taken? name fields = none) :
    s.patchAll (.object ((name, fields) :: members)) = s.patchAll (.object members) := by
  simp only [patchAll, Json.members?, Option.getD_some, List.foldl_cons]
  congr 1
  cases hn : (Named.ofName? name : Option Section) with
  | none => rfl
  | some n =>
    apply patch_of_count_eq_zero hs
    simpa [taken?, hn] using h

theorem patchAll_of_perm (h : members.Perm calls) (hn : (members.map Prod.fst).Nodup)
    (s : Settings) : s.patchAll (.object calls) = s.patchAll (.object members) := by
  apply ext_get
  · intro k
    rw [get_patchAll_object hn, get_patchAll_object ((h.map Prod.fst).nodup_iff.mp hn),
      Json.find?_of_perm h hn]
  · rw [schedule_patchAll, schedule_patchAll]

end Settings

def Machine.retyped? (m : Machine) (s : Settings) (touched : List Section) : Option Machine :=
  if .machineInfo ∈ touched then m.setType s.machineInfo.machineType else none

theorem Machine.retyped?_cons {m : Machine} {s t : Settings} {n : Section} {sections : List Section}
    (hn : n ∉ sections) (hsame : t.get n = s.get n) :
    let first := m.retyped? s [n]
    let rest := (first.getD m).retyped? t sections
    (m.retyped? t (n :: sections)).getD m = rest.getD (first.getD m) ∧
      (m.retyped? t (n :: sections)).toList = first.toList ++ rest.toList := by
  by_cases hinfo : n = .machineInfo
  · subst hinfo
    have htype : t.machineInfo = s.machineInfo := hsame
    simp [retyped?, hn, htype]
  · simp [retyped?, Ne.symm hinfo]

namespace Controller

variable {c d e : Controller} {s : Step} {name : String} {fields : Json} {n : Section}
  {members calls : Json.Members} {refuses : Access → Option StorageError}
  {told told' : List LiveState}

theorem adopt_eq (c : Controller) (settings : Settings) (touched : List Section) :
    c.adopt settings touched = { c with
      settings
      machine := (c.machine.retyped? settings touched).getD c.machine
      medium := (settings.saveSections touched c.medium).2
      outbox := c.outbox ++
        (c.machine.retyped? settings touched).toList.map (fun m => .stateChanged m.live) ++
          [.settingsChanged settings] } := by
  have hpersist (d : Controller) : touched.foldl persist d =
      { d with medium := (d.settings.saveSections touched d.medium).2 } := by
    induction touched generalizing d with
    | nil => rfl
    | cons n touched ih =>
      rw [List.foldl_cons, ih]
      rfl
  simp only [adopt, hpersist, Machine.retyped?]
  split
  · rw [syncType]
    dsimp only
    cases c.machine.setType settings.machineInfo.machineType with
    | none => simp [publishSettings, publish]
    | some machine => rfl
  · simp [publishSettings, publish]

theorem live_adopt (hc : c.outbox = []) (settings : Settings) (touched : List Section) :
    (c.adopt settings touched).outbox.filterMap Event.live? =
      (c.machine.retyped? settings touched).toList.map Machine.live := by
  rw [adopt_eq, hc]
  cases c.machine.retyped? settings touched <;> rfl

def sectionwise (readings : String → Readings) (refuses : Access → Option StorageError)
    (calls : Json.Members) : List Step :=
  calls.map fun p => ⟨readings p.1, refuses, .applySection p.1 p.2⟩

def outcomes : Controller → List Step → List Outcome
  | _, [] => []
  | c, s :: steps => c.outcome s :: (c.after s).outcomes steps

theorem applySection_of_taken (h : Settings.taken? name fields = some n) (c : Controller) :
    c.applySection name fields =
      .ok (Settings.count n fields, c.adopt (c.settings.patch n fields) [n]) := by
  obtain ⟨rfl, hcount⟩ := Settings.taken?_eq_some.mp h
  have hobject : fields.isObject = true := by
    rw [Json.isObject]
    cases hm : fields.members? with
    | none => simp [Settings.count, Schema.count, hm] at hcount
    | some members => rfl
  rw [applySection, Section.ofName_eq_ok.mpr rfl]
  simp [bind, Except.bind, hobject, hcount, pure, Except.pure]

theorem applySection_of_untaken (h : Settings.taken? name fields = none) (c : Controller) :
    (c.counted (c.applySection name fields)).1.applies = false ∧
      (c.counted (c.applySection name fields)).2 = c := by
  rw [applySection, Section.ofName]
  cases hn : (Named.ofName? name : Option Section) with
  | none => exact ⟨rfl, rfl⟩
  | some n =>
    have hcount : Settings.count n fields = 0 := by simpa [Settings.taken?, hn] using h
    cases fields.isObject <;>
      simp [bind, Except.bind, hcount, pure, Except.pure, counted, Outcome.applies, throw, throwThe,
        MonadExceptOf.throw]

/-- What applying the sections of a document makes of `c`, and the states that are told. -/
structure Imports (c : Controller) (refuses : Access → Option StorageError)
    (members : Json.Members) (d : Controller) (told : List LiveState) : Prop where
  settings : d.settings = c.settings.patchAll (.object members)
  machine : d.machine =
    (c.machine.retyped? d.settings (Settings.touched (.object members))).getD c.machine
  store : d.medium.store.Alike (d.settings.saveSections (Settings.touched (.object members))
    { c.medium with refuses, attempts := [] }).2.store
  others : d = { c with
    settings := d.settings, machine := d.machine, medium := d.medium, outbox := d.outbox }
  told : told =
    (c.machine.retyped? d.settings (Settings.touched (.object members))).toList.map Machine.live

theorem Imports.of_perm (h : c.Imports refuses members d told) (hp : members.Perm calls)
    (hn : (members.map Prod.fst).Nodup) : c.Imports refuses calls d told := by
  have htouched : (Settings.touched (.object members)).Perm (Settings.touched (.object calls)) :=
    hp.filterMap _
  have hretyped (s : Settings) : c.machine.retyped? s (Settings.touched (.object calls)) =
      c.machine.retyped? s (Settings.touched (.object members)) := by
    simp only [Machine.retyped?, htouched.mem_iff]
  refine ⟨?_, ?_, ?_, h.others, ?_⟩
  · rw [h.settings, Settings.patchAll_of_perm hp hn]
  · rw [hretyped]
    exact h.machine
  · exact h.store.trans (Settings.alike_saveSections_of_perm _ htouched _)
  · rw [hretyped]
    exact h.told

theorem Imports.unique (h : c.Imports refuses members d told) (h' : c.Imports refuses members e told') :
    { d with medium := e.medium, outbox := e.outbox } = e ∧ e.medium.store.Alike d.medium.store ∧
      told' = told := by
  have hsettings : e.settings = d.settings := h'.settings.trans h.settings.symm
  have hmachine : e.machine = d.machine := by rw [h'.machine, h.machine, hsettings]
  refine ⟨?_, ?_, ?_⟩
  · rw [h.others, h'.others]
    simp only [hsettings, hmachine]
  · have hstore := h'.store
    rw [hsettings] at hstore
    exact hstore.trans h.store.symm
  · rw [h.told, h'.told, hsettings]

theorem imports_nil (c : Controller) (refuses : Access → Option StorageError) :
    c.Imports refuses [] c [] :=
  ⟨rfl, rfl, .refl _, rfl, rfl⟩

theorem Imports.cons_of_untaken (h : (c.facing s).Imports refuses members d told) (hc : c.settings.Valid)
    (ht : Settings.taken? name fields = none) :
    c.Imports refuses ((name, fields) :: members) d told := by
  have htouched : Settings.touched (.object ((name, fields) :: members)) =
      Settings.touched (.object members) := by
    rw [Settings.touched_cons, ht]
    rfl
  refine ⟨?_, ?_, ?_, h.others, ?_⟩
  · rw [Settings.patchAll_cons_of_untaken hc ht]
    exact h.settings
  · rw [htouched]
    exact h.machine
  · rw [htouched]
    exact h.store
  · rw [htouched]
    exact h.told

theorem Imports.cons_of_taken
    (h : ((c.facing s).adopt (c.settings.patch n fields) [n]).Imports s.refuses members d told)
    (hc : c.settings.Valid) (hn : n.name ∉ members.map Prod.fst)
    (ht : Settings.taken? name fields = some n) :
    c.Imports s.refuses ((name, fields) :: members) d
      ((c.machine.retyped? (c.settings.patch n fields) [n]).toList.map Machine.live ++ told) := by
  rw [adopt_eq] at h
  have hrest : n ∉ Settings.touched (.object members) := fun hmem =>
    hn (Settings.name_of_mem_touched hmem)
  have htouched : Settings.touched (.object ((name, fields) :: members)) =
      n :: Settings.touched (.object members) := by
    rw [Settings.touched_cons, ht]
    rfl
  have hsettings : d.settings = (c.settings.patch n fields).patchAll (.object members) := h.settings
  have hsame : d.settings.get n = (c.settings.patch n fields).get n := by
    rw [hsettings]
    exact Settings.get_patchAll (hc.patch n fields) hrest
  obtain ⟨hmachine, hnews⟩ := Machine.retyped?_cons (m := c.machine) hrest hsame
  refine ⟨?_, ?_, ?_, h.others, ?_⟩
  · rw [Settings.patchAll_cons_of_taken ht]
    exact hsettings
  · rw [htouched, hmachine]
    exact h.machine
  · have hstored : d.settings.stored n = (c.settings.patch n fields).stored n := by
      rw [Settings.stored, hsame, Settings.stored]
    have hsaved (m : Medium) :
        (d.settings.saveSection n m).2 = ((c.settings.patch n fields).saveSection n m).2 := by
      rw [Settings.saveSection, hstored, Settings.saveSection]
    rw [htouched]
    refine h.store.trans ?_
    show Store.Alike _ (d.settings.saveSections _
      (d.settings.saveSection n (c.facing s).medium).2).2.store
    apply Settings.alike_saveSections
    · exact (d.settings.refuses_saveSections [n] (c.facing s).medium).symm
    · rw [hsaved]
      exact .refl _
  · rw [htouched, hnews, List.map_append, h.told]
    rfl

theorem imports_sectionwise (hc : c.settings.Valid) (hn : (calls.map Prod.fst).Nodup)
    (readings : String → Readings) : c.Imports refuses calls
      (c.run (sectionwise readings refuses calls))
      ((c.published (sectionwise readings refuses calls)).filterMap Event.live?) := by
  induction calls generalizing c with
  | nil => exact imports_nil c refuses
  | cons p calls ih =>
    obtain ⟨name, fields⟩ := p
    obtain ⟨hname, hcalls⟩ := List.nodup_cons.mp hn
    let s : Step := ⟨readings name, refuses, .applySection name fields⟩
    have hrest := ih (valid_after hc s) hcalls
    have hrun : c.run (sectionwise readings refuses ((name, fields) :: calls)) =
      (c.after s).run (sectionwise readings refuses calls) := rfl
    have hpublished : c.published (sectionwise readings refuses ((name, fields) :: calls)) =
      (c.after s).outbox ++ (c.after s).published (sectionwise readings refuses calls) := rfl
    rw [hrun, hpublished, List.filterMap_append]
    cases ht : Settings.taken? name fields with
    | none =>
      have hafter : c.after s = c.facing s := (applySection_of_untaken ht (c.facing s)).2
      rw [hafter] at hrest ⊢
      exact hrest.cons_of_untaken hc ht
    | some n =>
      have hafter : c.after s = (c.facing s).adopt (c.settings.patch n fields) [n] := by
        show ((c.facing s).counted ((c.facing s).applySection name fields)).2 = _
        rw [applySection_of_taken ht]
        rfl
      have hlive : (c.after s).outbox.filterMap Event.live? =
          (c.machine.retyped? (c.settings.patch n fields) [n]).toList.map Machine.live := by
        rw [hafter, live_adopt rfl]
        rfl
      rw [hlive]
      rw [hafter] at hrest ⊢
      exact hrest.cons_of_taken hc ((Settings.taken?_eq_some.mp ht).1 ▸ hname) ht

theorem applied_sectionwise (c : Controller) (readings : String → Readings)
    (refuses : Access → Option StorageError) (calls : Json.Members) :
    ((calls.zip (c.outcomes (sectionwise readings refuses calls))).filter
      fun p => p.2.applies).map (fun p => p.1.1) =
        (Settings.touched (.object calls)).map Section.name := by
  induction calls generalizing c with
  | nil => rfl
  | cons p calls ih =>
    obtain ⟨name, fields⟩ := p
    let s : Step := ⟨readings name, refuses, .applySection name fields⟩
    have houtcomes : c.outcomes (sectionwise readings refuses ((name, fields) :: calls)) =
      c.outcome s :: (c.after s).outcomes (sectionwise readings refuses calls) := rfl
    have houtcome : c.outcome s =
      ((c.facing s).counted ((c.facing s).applySection name fields)).1 := rfl
    rw [houtcomes, List.zip_cons_cons, Settings.touched_cons]
    cases ht : Settings.taken? name fields with
    | none =>
      have happlies : (c.outcome s).applies = false := (applySection_of_untaken ht _).1
      simp [happlies, ih]
    | some n =>
      obtain ⟨rfl, hcount⟩ := Settings.taken?_eq_some.mp ht
      have happlies : (c.outcome s).applies = true := by
        rw [houtcome, applySection_of_taken ht]
        simpa [counted, Outcome.applies] using hcount
      simp [happlies, ih]

theorem after_applySettings (c : Controller)
    (hq : s.call = .applySettings (.object members)) :
    let touched := Settings.touched (.object members)
    c.outcome s = .count (.ok touched.length) ∧
      c.after s = if touched = [] then c.facing s
        else (c.facing s).adopt (c.settings.patchAll (.object members)) touched := by
  intro touched
  have happly : (c.facing s).applySettings (.object members) = .ok (touched.length,
    if touched = [] then c.facing s
    else (c.facing s).adopt (c.settings.patchAll (.object members)) touched) := rfl
  rw [outcome, after, hq, call, happly]
  exact ⟨rfl, rfl⟩

theorem imports_applySettings (hc : c.settings.Valid)
    (hq : s.call = .applySettings (.object members)) :
    c.Imports s.refuses members (c.after s) ((c.after s).outbox.filterMap Event.live?) := by
  rw [(after_applySettings c hq).2]
  split
  · next hnone =>
    have hsame : c.settings.patchAll (.object members) = c.settings := by
      apply Settings.ext_get
      · intro n
        exact Settings.get_patchAll hc (by simp [hnone])
      · exact Settings.schedule_patchAll ..
    refine ⟨hsame.symm, ?_, ?_, rfl, ?_⟩ <;> rw [hnone]
    · rfl
    · exact .refl _
    · rfl
  · rw [live_adopt rfl, adopt_eq]
    exact ⟨rfl, rfl, .refl _, rfl, rfl⟩

theorem traces_applySettings (c : Controller) (hq : s.call = .applySettings (.object members)) :
    let touched := Settings.touched (.object members)
    let d := c.after s
    d.medium.attempts.map Attempt.access = touched.map (fun n =>
      .write (Settings.address n) (Text.toBytes (d.settings.stored n))) ∧
    d.outbox = (d.outbox.filterMap Event.live?).map .stateChanged ++
      if touched = [] then [] else [.settingsChanged d.settings] := by
  intro touched d
  have hd : d = _ := (after_applySettings c hq).2
  by_cases hnone : touched = []
  · rw [if_pos hnone] at hd
    rw [hd, hnone]
    exact ⟨rfl, rfl⟩
  · rw [if_neg hnone] at hd
    rw [hd, if_neg hnone, live_adopt rfl, adopt_eq]
    refine ⟨Settings.accesses_saveSections _ touched _, ?_⟩
    rw [List.map_map]
    rfl

/-- To apply a document comes to the same as to apply its sections one by one, in whatever order and
whatever the store refuses. It counts the updates that take something, writes their sections once
each and nothing else, and tells the settings once if there are any. -/
theorem bulk_import_is_sectionwise (c₀ : Controller) (r₀ : Readings) (pre : List Step)
    (hn : (members.map Prod.fst).Nodup) (hp : calls.Perm members) (r : Readings)
    (readings : String → Readings) (refuses : Access → Option StorageError) :
    let c := (c₀.boot r₀).run pre
    let bulk : Step := ⟨r, refuses, .applySettings (.object members)⟩
    let steps := sectionwise readings refuses calls
    let b := c.after bulk
    let d := c.run steps
    let applied := (calls.zip (c.outcomes steps)).filter fun p => p.2.applies
    { d with medium := b.medium, outbox := b.outbox } = b ∧
    (b.medium.store.available = d.medium.store.available ∧
      ∀ path, b.medium.store.lookup path = d.medium.store.lookup path) ∧
    c.outcome bulk = .count (.ok applied.length) ∧
    (∃ sections : List Section, sections.Nodup ∧
      (sections.map Section.name).Perm (applied.map fun p => p.1.1) ∧
      b.medium.attempts.map Attempt.access = sections.map fun n =>
        .write (Settings.address n) (Text.toBytes (b.settings.stored n))) ∧
    b.outbox = ((c.published steps).filterMap Event.live?).map .stateChanged ++
      if applied = [] then [] else [.settingsChanged b.settings] := by
  intro c bulk steps b d applied
  have hc : c.settings.Valid := valid_run c₀ r₀ pre
  have hcalls : (calls.map Prod.fst).Nodup := (hp.map Prod.fst).nodup_iff.mpr hn
  have hd : c.Imports refuses members d _ :=
    (imports_sectionwise hc hcalls readings).of_perm hp hcalls
  have hb : c.Imports refuses members b _ := imports_applySettings (s := bulk) hc rfl
  obtain ⟨hsame, hstore, htold⟩ := hd.unique hb
  obtain ⟨haccesses, houtbox⟩ := traces_applySettings (s := bulk) c rfl
  have hnames : ((Settings.touched (.object members)).map Section.name).Perm
      (applied.map fun p => p.1.1) := by
    rw [applied_sectionwise]
    exact (hp.symm.filterMap _).map _
  have hlength : (Settings.touched (.object members)).length = applied.length := by
    simpa using hnames.length_eq
  have hnone : Settings.touched (.object members) = [] ↔ applied = [] := by
    rw [← List.length_eq_zero_iff, hlength, List.length_eq_zero_iff]
  refine ⟨hsame, ⟨hstore.available, hstore.lookup⟩, ?_, ?_, ?_⟩
  · rw [(after_applySettings c rfl).1, hlength]
  · exact ⟨_, Settings.nodup_touched hn, hnames, haccesses⟩
  · rw [htold] at houtbox
    simpa only [hnone] using houtbox

theorem bulk_import_is_sectionwise_reversed :
    let members : Json.Members := [("brew", .object [("targetWeight", .int 40)]),
      ("machineInfo", .object [("machineType", .text "dual_boiler")]),
      ("nonsense", .object [("a", .int 1)]), ("power", .null)]
    let refuses := Fault.refusal [⟨.write, "settings/brew", .io⟩]
    let c := ((blank default (.reliable .empty)).boot ⟨0, none, 0⟩).run []
    let steps := sectionwise (fun _ => ⟨1, none, 0⟩) refuses members.reverse
    let b := c.after ⟨⟨1, none, 0⟩, refuses, .applySettings (.object members)⟩
    let d := c.run steps
    ((members.map Prod.fst).Nodup ∧ members.reverse.Perm members) ∧
    d.machine = b.machine ∧ b.machine.live.machineType = .dualBoiler ∧
    (∀ path, b.medium.store.lookup path = d.medium.store.lookup path) ∧
    b.medium.attempts.map Attempt.failure = [some .io, none] := by
  intro members refuses c steps b d
  have hn : (members.map Prod.fst).Nodup := by decide
  have hp : members.reverse.Perm members := List.reverse_perm _
  have htype : b.machine.live.machineType = .dualBoiler := by decide +kernel
  have hfailures : b.medium.attempts.map Attempt.failure = [some .io, none] := by decide +kernel
  obtain ⟨hsame, ⟨-, hlookup⟩, -⟩ := bulk_import_is_sectionwise (blank default (.reliable .empty))
    ⟨0, none, 0⟩ [] hn hp ⟨1, none, 0⟩ (fun _ => ⟨1, none, 0⟩) refuses
  -- With the document in sight, the runs would be evaluated to compare the statements.
  clear_value members refuses
  exact ⟨⟨hn, hp⟩, (congrArg Controller.machine hsame :), htype, hlookup, hfailures⟩

end Controller

end Espresso
