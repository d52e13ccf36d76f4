import Espresso.Proofs.Settings.Edit

namespace Espresso

theorem Section.countP_shown_pos (n : Section) (s : n.Content) :
    0 < n.schema.fields.countP fun f => !f.secret && f.kind.retakes (f.get s) := by
  cases n <;> exact List.countP_pos_iff.mpr ⟨_, List.mem_cons_self .., rfl⟩

namespace Settings

variable {s t : Settings} {members : Json.Members}

theorem ext_get (h : ∀ n, s.get n = t.get n) (hs : s.schedule = t.schedule) : s = t := by
  obtain ⟨_, _, _, _, _, _, _, _, _, _, _, _, _, _⟩ := s
  obtain ⟨_, _, _, _, _, _, _, _, _, _, _, _, _, _⟩ := t
  exact Settings.mk.injEq .. ▸ ⟨h .temperature, h .brew, h .power, h .network, h .time, h .mqtt,
    h .cloud, h .scale, h .display, h .machineInfo, h .notifications, h .system, h .preferences, hs⟩

theorem get_patchAll_object (h : (members.map Prod.fst).Nodup) (s : Settings) (n : Section) :
    (s.patchAll (.object members)).get n =
      (Json.find? n.name members).elim (s.get n) (n.schema.patch (s.get n)) := by
  rw [get_patchAll_eq, documentsFor, Json.members?, Option.getD_some, Json.filterMap_eq_find? h]
  cases Json.find? n.name members <;> rfl

theorem sorted_touched (h : Json.Sorted members) :
    (touched (.object members)).Pairwise fun m n => m.name < n.name := by
  refine List.Pairwise.filterMap _ ?_ h
  rintro ⟨name, fields⟩ ⟨name', fields'⟩ hlt m hm n hn
  obtain ⟨hm, -⟩ := Option.filter_eq_some_iff.mp hm
  obtain ⟨hn, -⟩ := Option.filter_eq_some_iff.mp hn
  rw [Section.ofName?_eq_some.mp hm, Section.ofName?_eq_some.mp hn] at hlt
  exact hlt

theorem nodup_names_toJson (s : Settings) :
    ((Section.all.map (fun n => (n.name, s.sectionJson n)) ++
      [("schedule", s.schedule.toJson)]).map Prod.fst).Nodup := by
  have hnames : (Section.all.map Section.name ++ ["schedule"]).Nodup := by decide
  rw [List.map_append, List.map_map]
  exact hnames

theorem exists_members_toJson (s : Settings) :
    ∃ members, s.toJson = .object members ∧ Json.Sorted members ∧
      ∀ n : Section, Json.find? n.name members = some (s.sectionJson n) := by
  refine ⟨_, rfl, Json.sorted_ofMembers _, ?_⟩
  intro n
  apply Json.find?_ofMembers_of_mem s.nodup_names_toJson
  exact List.mem_append_left _ (List.mem_map_of_mem n.mem_all)

theorem patch_sectionJson (hs : s.Valid) (hlabel : Text.isHostLabel s.network.hostname = true)
    (n : Section) (c : n.Content) :
    n.schema.patch c (s.sectionJson n) =
      n.schema.transfer (fun f => !f.secret && !f.kind.isDerived) (s.get n) c := by
  refine (n.lawful.patch_toJson (hs n) c).trans (Schema.transfer_congr ?_)
  intro f hf
  rw [retakes_eq hlabel n f hf]

theorem count_sectionJson_ne_zero (hs : s.Valid) (n : Section) : count n (s.sectionJson n) ≠ 0 := by
  rw [count, sectionJson, n.lawful.count_toJson (hs n)]
  exact Nat.ne_of_gt (n.countP_shown_pos _)

theorem secret_eq_false {n : Section} (hnetwork : n ≠ .network) (hmqtt : n ≠ .mqtt)
    (hcloud : n ≠ .cloud) : ∀ f ∈ n.schema.fields, f.secret = false := by
  cases n with
  | network => exact absurd rfl hnetwork
  | mqtt => exact absurd rfl hmqtt
  | cloud => exact absurd rfl hcloud
  | _ => decide

theorem transfer_of_secret_eq_false {n : Section} {c : n.Content} (hc : n.schema.Valid c)
    (hn : ∀ f ∈ n.schema.fields, f.secret = false) (d : n.Content) :
    n.schema.transfer (fun f => !f.secret && !f.kind.isDerived) c d = c := by
  refine n.lawful.transfer_eq hc ?_ d
  intro f hf
  rw [hn f hf]
  rfl

theorem transfer_network {c : Network} (hc : Network.schema.Valid c) (d : Network) :
    Network.schema.transfer (fun f => !f.secret && !f.kind.isDerived) c d =
      { c with wifiPassword := d.wifiPassword } := by
  show ({ c with wifiPassword := d.wifiPassword, wifiConfigured := c.wifiSsid ≠ "" } : Network) = _
  rw [Network.wifiConfigured_eq hc]

theorem transfer_mqtt (c d : Mqtt) :
    Mqtt.schema.transfer (fun f => !f.secret && !f.kind.isDerived) c d =
      { c with password := d.password } := rfl

theorem transfer_cloud (c d : Cloud) :
    Cloud.schema.transfer (fun f => !f.secret && !f.kind.isDerived) c d =
      { c with deviceKey := d.deviceKey } := rfl

theorem patchAll_toJson (hs : s.Valid) (hlabel : Text.isHostLabel s.network.hostname = true)
    (t : Settings) :
    (touched s.toJson).Perm Section.all ∧
    ((touched s.toJson).Pairwise fun m n => m.name < n.name) ∧
    t.patchAll s.toJson = { s with
      network := { s.network with wifiPassword := t.network.wifiPassword }
      mqtt := { s.mqtt with password := t.mqtt.password }
      cloud := { s.cloud with deviceKey := t.cloud.deviceKey }
      schedule := t.schedule } := by
  obtain ⟨members, hdocument, hsorted, hfind⟩ := s.exists_members_toJson
  -- In order of their names no section comes twice, so that it is enough that each one comes.
  have htouched := sorted_touched hsorted
  have hnodup : (touched (.object members)).Nodup := by
    refine List.Pairwise.imp ?_ htouched
    rintro m n hlt rfl
    exact String.lt_irrefl _ hlt
  rw [hdocument]
  refine ⟨?_, htouched, ext_get ?_ (schedule_patchAll ..)⟩
  · refine (List.perm_ext_iff_of_nodup hnodup (by decide)).mpr ?_
    intro n
    refine iff_of_true ?_ n.mem_all
    exact mem_touched (Json.mem_of_find? (hfind n)) n.ofName?_name (count_sectionJson_ne_zero hs n)
  · intro n
    rw [get_patchAll_object hsorted.nodup, hfind, Option.elim_some, patch_sectionJson hs hlabel]
    cases n with
    | network => exact transfer_network (hs .network) _
    | mqtt => exact transfer_mqtt _ _
    | cloud => exact transfer_cloud _ _
    | _ =>
      exact transfer_of_secret_eq_false (hs _) (secret_eq_false (by decide) (by decide) (by decide)) _

theorem patchAll_toJson_kitchen :
    let s := ((default : Settings).patch .temperature (.object [("brewSetpoint", .int 96)])).patch
      .network (.object [("hostname", .text "kitchen"), ("wifiPassword", .text "old")])
    let t := (default : Settings).patch .network (.object [("wifiPassword", .text "new")])
    let u := t.patchAll s.toJson
    (s.Valid ∧ Text.isHostLabel s.network.hostname = true) ∧ (touched s.toJson).length = 13 ∧
      u.temperature = s.temperature ∧ u.network.hostname = "kitchen" ∧
      u.network.wifiPassword = "new" := by
  intro s t u
  have hs : s.Valid := ((valid_initial default).patch _ _).patch _ _
  have hlabel : Text.isHostLabel s.network.hostname = true := by decide +kernel
  obtain ⟨htouched, -, hu⟩ := patchAll_toJson hs hlabel t
  have hnetwork : u.network = { s.network with wifiPassword := t.network.wifiPassword } :=
    congrArg Settings.network hu
  refine ⟨⟨hs, hlabel⟩, htouched.length_eq, (congrArg Settings.temperature hu :), ?_, ?_⟩
  · rw [hnetwork]
    decide +kernel
  · rw [hnetwork]
    decide +kernel

end Settings

end Espresso
