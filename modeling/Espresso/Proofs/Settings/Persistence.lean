import Espresso.Proofs.Settings.Section
import Espresso.Proofs.Storage
import Espresso.Settings.Persistence

namespace Espresso

theorem Section.ofName?_name (n : Section) : Named.ofName? n.name = some n := by
  cases n <;> decide

theorem Section.name_injective {m n : Section} (h : m.name = n.name) : m = n := by
  have hm := m.ofName?_name
  rw [h, n.ofName?_name] at hm
  exact (Option.some.inj hm).symm

theorem Section.ofName?_eq_some {name : String} {n : Section} :
    Named.ofName? name = some n ↔ name = n.name := by
  constructor
  · intro h
    exact (of_decide_eq_true (List.find?_some (p := fun n => decide (Named.name n = name)) h)).symm
  · rintro rfl
    exact n.ofName?_name

theorem Section.ofName_eq_ok {name : String} {n : Section} :
    Section.ofName name = .ok n ↔ name = n.name := by
  rw [← Section.ofName?_eq_some, Section.ofName]
  cases (Named.ofName? name : Option Section) <;> simp

theorem Section.mem_all (n : Section) : n ∈ Section.all := by cases n <;> decide

namespace Settings

variable {m m' : Medium} {s : Settings}

def Valid (s : Settings) : Prop := ∀ n : Section, n.schema.Valid (s.get n)

def loaded (m : Medium) (n : Section) : n.Content :=
  match m.read (address n) with
  | .ok bytes => (Json.ofBytes? bytes).elim n.schema.initial (n.schema.patch n.schema.initial)
  | .error _ => n.schema.initial

theorem set_set (s : Settings) (n : Section) (a b : n.Content) : (s.set n a).set n b = s.set n b := by
  cases n <;> rfl

theorem loadSection_eq (m : Medium) (s : Settings) (n : Section) :
    loadSection m s n = s.set n (loaded m n) := by
  unfold loadSection loaded
  cases m.read (address n) with
  | error e => rfl
  | ok bytes =>
    dsimp only
    cases Json.ofBytes? bytes with
    | none => rfl
    | some v =>
      show (s.reset n).set n (n.schema.patch ((s.reset n).get n) v) = _
      rw [reset, set_set, get_set]
      rfl

theorem get_load (m : Medium) (n : Section) : (load m).get n = loaded m n := by
  have hfold (sections : List Section) (s : Settings) : n ∈ sections ∨ s.get n = loaded m n →
      (sections.foldl (loadSection m) s).get n = loaded m n := by
    induction sections generalizing s with
    | nil =>
      rintro (h | h)
      · cases h
      · exact h
    | cons k sections ih =>
      intro h
      rw [List.foldl_cons, loadSection_eq]
      apply ih
      by_cases hk : n = k
      · subst hk
        exact .inr (get_set ..)
      · rw [get_set_of_ne _ hk]
        exact h.imp_left fun h => (List.mem_cons.mp h).resolve_left hk
  exact hfold _ _ (.inl n.mem_all)

theorem valid_loaded (m : Medium) (n : Section) : n.schema.Valid (loaded m n) := by
  have hinitial := n.lawful.valid_initial
  unfold loaded
  split
  · next bytes _ =>
    cases Json.ofBytes? bytes with
    | none => exact hinitial
    | some v => exact n.lawful.valid_patch hinitial v
  · exact hinitial

theorem get_initial (t : ScheduleTable) (n : Section) : (initial t).get n = n.schema.initial := by
  cases n <;> rfl

theorem valid_initial (t : ScheduleTable) : (initial t).Valid := by
  intro n
  rw [get_initial]
  exact n.lawful.valid_initial

theorem Valid.set {n : Section} {content : n.Content} (h : s.Valid) (hc : n.schema.Valid content) :
    (s.set n content).Valid := by
  intro k
  by_cases hk : k = n
  · subst hk
    rwa [get_set]
  · rw [get_set_of_ne _ hk]
    exact h k

theorem get_with_schedule (s : Settings) (schedule : ScheduleTable) (n : Section) :
    ({ s with schedule } : Settings).get n = s.get n := by
  cases n <;> rfl

theorem Valid.with_schedule (h : s.Valid) (schedule : ScheduleTable) :
    ({ s with schedule } : Settings).Valid := by
  intro n
  rw [get_with_schedule]
  exact h n

theorem valid_load (m : Medium) : (load m).Valid := by
  intro n
  rw [get_load]
  exact valid_loaded m n

theorem Valid.patch (h : s.Valid) (n : Section) (v : Json) : (s.patch n v).Valid :=
  h.set (n.lawful.valid_patch (h n) v)

theorem Valid.patchAll (h : s.Valid) (document : Json) : (s.patchAll document).Valid := by
  refine List.foldlRecOn (motive := Valid) _ _ h ?_
  intro t ht p _
  dsimp only
  split
  · exact ht.patch _ _
  · exact ht

theorem Valid.setMachineType (h : s.Valid) (t : MachineType) :
    ({ s with machineInfo := { s.machineInfo with machineType := t } } : Settings).Valid := by
  have hinfo : MachineInfo.schema.Valid s.machineInfo := h .machineInfo
  have htype : MachineInfo.schema.Valid { s.machineInfo with machineType := t } := by
    refine ⟨?_, rfl⟩
    simpa [MachineInfo.schema, Kind.Admits] using hinfo.admits
  exact h.set (n := .machineInfo) htype

theorem mem_touched {document : Json} {name : String} {fields : Json} {n : Section}
    (hp : (name, fields) ∈ document.members?.getD []) (hk : Named.ofName? name = some n)
    (hc : count n fields ≠ 0) : n ∈ touched document := by
  refine List.mem_filterMap.mpr ⟨(name, fields), hp, ?_⟩
  dsimp only
  rw [hk, Option.filter_some_pos (by simpa using hc)]

theorem get_patchAll (hs : s.Valid) {document : Json} {n : Section} (hn : n ∉ touched document) :
    (s.patchAll document).get n = s.get n := by
  refine List.foldlRecOn (motive := fun t : Settings => t.get n = s.get n) _ _ rfl ?_
  rintro t ht ⟨name, fields⟩ hp
  dsimp only
  cases hk : (Named.ofName? name : Option Section) with
  | none => exact ht
  | some k =>
    by_cases hkn : n = k
    · subst hkn
      have hcount : count n fields = 0 := by
        by_contra hc
        exact hn (mem_touched hp hk hc)
      show (t.patch n fields).get n = s.get n
      rw [patch, get_set, ← ht]
      exact Schema.patch_of_count_eq_zero (ht ▸ hs n) hcount
    · exact (get_set_of_ne t hkn _).trans ht

def Recalls (m : Medium) (s : Settings) : Prop :=
  ∀ n, loaded m n = s.get n ∨ m.read (address n) = .ok (Text.toBytes (s.stored n))

theorem recalls_load (m : Medium) : (load m).Recalls m := fun n => .inl (get_load m n).symm

theorem Recalls.congr {t : Settings} (h : s.Recalls m)
    (hr : ∀ n, m'.read (address n) = m.read (address n)) (ht : ∀ n : Section, t.get n = s.get n) :
    t.Recalls m' := by
  intro n
  rw [loaded, hr, stored, ht]
  exact h n

theorem loaded_of_stored {n : Section} (hs : n.schema.Valid (s.get n))
    (hl : ∀ f ∈ n.schema.fields, (f.scalar (s.get n)).Legible)
    (h : m.read (address n) = .ok (Text.toBytes (s.stored n))) :
    loaded m n =
      n.schema.transfer (fun f => f.kind.retakes (f.get (s.get n))) (s.get n) n.schema.initial := by
  obtain ⟨v, hv, hp⟩ := n.lawful.patch_stored hs hl
  rw [loaded, h]
  dsimp only
  rw [stored, hv]
  exact hp _

theorem loaded_of_read {n : Section} (hs : n.schema.Valid (s.get n))
    (hr : n.schema.Readable (s.get n))
    (h : m.read (address n) = .ok (Text.toBytes (s.stored n))) : loaded m n = s.get n := by
  have hreadable := fun f hf => Kind.readable_iff.mp (hr f hf)
  rw [loaded_of_stored hs (fun f hf => (hreadable f hf).1) h]
  exact n.lawful.transfer_eq hs (fun f hf => (hreadable f hf).2) _

theorem Recalls.get_load (h : s.Recalls m) (hs : s.Valid)
    (hlabel : Text.isHostLabel s.network.hostname = true) (hl : s.Legible) (n : Section) :
    (load m).get n = s.get n := by
  rw [Settings.get_load]
  rcases h n with h | h
  · exact h
  · exact loaded_of_read (hs n) (readable hlabel hl n) h

theorem read_saveSection {n : Section} (hs : n.schema.Valid (s.get n)) (hm : m.Ready) :
    (s.saveSection n m).2.read (address n) = .ok (Text.toBytes (s.stored n)) :=
  hm.read_write (n.lawful.length_stored_le hs)

/-- A valid section survives the store: it is saved, it is loaded into any settings as it was, and
nothing else changes in those settings or in the store. -/
theorem loadSection_saveSection (hs : s.Valid)
    (hlabel : Text.isHostLabel s.network.hostname = true) (hl : s.Legible) (hm : m.Ready)
    (n : Section) (t : Settings) :
    let m' := (s.saveSection n m).2
    let t' := loadSection m' t n
    (s.saveSection n m).1 = .ok () ∧ t'.get n = s.get n ∧ (∀ k, k ≠ n → t'.get k = t.get k) ∧
      t'.schedule = t.schedule ∧
      ∀ path, path ≠ (address n).path → m'.store.lookup path = m.store.lookup path := by
  intro m' t'
  have hload : t' = t.set n (s.get n) := by
    have hloaded : loaded m' n = s.get n :=
      loaded_of_read (hs n) (readable hlabel hl n) (read_saveSection (hs n) hm)
    rw [← hloaded]
    exact loadSection_eq m' t n
  refine ⟨hm.write_eq_ok (n.lawful.length_stored_le (hs n)), ?_, ?_, ?_, ?_⟩
  · rw [hload, get_set]
  · intro k hk
    rw [hload, get_set_of_ne t hk]
  · rw [hload, schedule_set]
  · intro path hpath
    exact Medium.lookup_write_of_ne m _ hpath

theorem loadSection_saveSection_quoted :
    let s := (default : Settings).patch .network (.object [("hostname", .text "kitchen"),
      ("wifiPassword", .text "back\\slash"), ("wifiSsid", .text "Café \"Nord\"")])
    let m := Medium.reliable .empty
    let m' := (s.saveSection .network m).2
    let t' := loadSection m' default .network
    (s.Valid ∧ Text.isHostLabel s.network.hostname = true ∧ s.Legible ∧ m.Ready) ∧
      s.network.wifiSsid = "Café \"Nord\"" ∧ t'.network = s.network ∧
      t'.brew = (default : Settings).brew := by
  intro s m m' t'
  have hs : s.Valid := (valid_initial default).patch _ _
  have hlabel : Text.isHostLabel s.network.hostname = true := by decide +kernel
  have hl : s.Legible := by
    intro n
    cases n <;> decide +kernel
  have hm : m.Ready := ⟨rfl, fun _ => rfl⟩
  obtain ⟨-, hnetwork, hothers, -, -⟩ := loadSection_saveSection hs hlabel hl hm .network default
  exact ⟨⟨hs, hlabel, hl, hm⟩, by decide +kernel, hnetwork, hothers .brew (by decide)⟩

theorem path_address_ne {n k : Section} (h : n ≠ k) : (address n).path ≠ (address k).path := by
  intro hp
  exact h (Section.name_injective (String.toList_inj.mp (List.append_cancel_left hp)))

theorem ready_saveSections (s : Settings) (sections : List Section) (hm : m.Ready) :
    (s.saveSections sections m).2.Ready := by
  induction sections generalizing m with
  | nil => exact hm
  | cons n sections ih => exact ih (hm.write _ _)

theorem read_saveSections (s : Settings) (sections : List Section) (hm : m.Ready) {a : Address}
    (ha : ∀ n ∈ sections, a.path ≠ (address n).path) :
    (s.saveSections sections m).2.read a = m.read a := by
  induction sections generalizing m with
  | nil => rfl
  | cons n sections ih =>
    have hrest := ih (hm.write (address n) (Text.toBytes (s.stored n)))
      fun k hk => ha k (List.mem_cons_of_mem _ hk)
    have hfirst := hm.read_write_of_ne (ha n (List.mem_cons_self ..)) (Text.toBytes (s.stored n))
    exact hrest.trans hfirst

theorem read_saveSections_of_mem {sections : List Section} {n : Section} (hs : s.Valid)
    (hm : m.Ready) (hn : n ∈ sections) :
    (s.saveSections sections m).2.read (address n) = .ok (Text.toBytes (s.stored n)) := by
  induction sections generalizing m with
  | nil => cases hn
  | cons k sections ih =>
    have hready := hm.write (address k) (Text.toBytes (s.stored k))
    by_cases hmem : n ∈ sections
    · exact ih hready hmem
    · obtain rfl := (List.mem_cons.mp hn).resolve_right hmem
      have hrest := read_saveSections s sections hready (a := address n) fun k hk =>
        path_address_ne fun h => hmem (h ▸ hk)
      exact hrest.trans (read_saveSection (hs n) hm)

theorem recalls_saveSections {t : Settings} {sections : List Section} (hm : m.Ready) (ht : t.Valid)
    (h : s.Recalls m) (hs : ∀ n, n ∉ sections → t.get n = s.get n) :
    t.Recalls (t.saveSections sections m).2 := by
  intro n
  by_cases hn : n ∈ sections
  · exact .inr (read_saveSections_of_mem ht hm hn)
  · have hr := read_saveSections t sections hm (a := address n) fun k hk =>
      path_address_ne fun h => hn (h ▸ hk)
    rw [loaded, hr, stored, hs n hn]
    exact h n

end Settings

end Espresso
