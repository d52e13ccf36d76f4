import Espresso.Proofs.Json.Same
import Espresso.Proofs.Settings.Export

namespace Espresso

namespace Kind

variable {α : Type} {k : Kind α} {a b : α}

theorem same_of_toJson (hk : k.Fair) (ha : k.Admits a) (hb : k.Admits b)
    (h : (k.scalar a).toJson.same (k.scalar b).toJson = true) :
    (k.scalar a).same (k.scalar b) = true := by
  cases k with
  | single lo hi =>
    exact Json.same_single (isFinite_of_within hk.1 hk.2 ha) (isFinite_of_within hk.1 hk.2 hb) h
  | _ => simpa [scalar, Scalar.toJson, Scalar.same, Json.same] using h

end Kind

namespace Schema

variable {σ : Type} {S : Schema σ} {s t : σ} {f : Field σ}

theorem toJson_congr (h : ∀ f ∈ S.fields, f.secret = false → f.scalar s = f.scalar t) :
    S.toJson s = S.toJson t := by
  refine congrArg Json.ofPairs (List.map_congr_left ?_)
  intro f hf
  obtain ⟨hmem, hshown⟩ := List.mem_filter.mp hf
  rw [h f hmem (by simpa using hshown)]

theorem Lawful.get?_toJson (hS : S.Lawful) (hf : f ∈ S.fields) (hshown : f.secret = false) :
    (S.toJson s).get? f.key = some (f.scalar s).toJson := by
  apply Json.get?_ofPairs
  · rw [List.map_map]
    exact hS.keys_nodup.sublist (List.filter_sublist.map _)
  · exact List.mem_map_of_mem (List.mem_filter.mpr ⟨hf, by simp [hshown]⟩)

theorem Lawful.same_of_toJson (hS : S.Lawful) (hs : S.Valid s) (ht : S.Valid t)
    (h : (S.toJson s).same (S.toJson t) = true) (hf : f ∈ S.fields) (hshown : f.secret = false) :
    (f.scalar s).same (f.scalar t) = true := by
  apply Kind.same_of_toJson (hS.fair f hf) (hs.admits f hf) (ht.admits f hf)
  exact Json.same_of_get? h (hS.get?_toJson hf hshown) (hS.get?_toJson hf hshown)

end Schema

namespace ScheduleTable

theorem entry_eq_of_toJson (e f : ScheduleEntry) (h : e.toJson.same f.toJson = true) : e = f := by
  have hkeys : ["id", "enabled", "days", "hour", "minute", "action", "strategy", "name"].Nodup := by
    decide
  have haction {a b : ScheduleAction} (hname : Named.name a = Named.name b) : a = b := by
    cases a <;> cases b <;> revert hname <;> decide
  have hstrategy {a b : HeatingStrategy} (hname : Named.name a = Named.name b) : a = b := by
    cases a <;> cases b <;> revert hname <;> decide
  have hfields := Json.forall₂_same h hkeys rfl
  simp only [List.forall₂_cons, Json.same, Json.nat, decide_eq_true_eq, Int.natCast_inj,
    UInt8.toNat_inj] at hfields
  obtain ⟨hid, henabled, hdays, hhour, hminute, hact, hstr, hname, -⟩ := hfields
  obtain ⟨_, _, ⟨_⟩, _, _, _, _, _, _⟩ := e
  obtain ⟨_, _, ⟨_⟩, _, _, _, _, _, _⟩ := f
  dsimp only at *
  obtain rfl := haction hact
  obtain rfl := hstrategy hstr
  subst hid henabled hdays hhour hminute hname
  rfl

theorem same_of_toJson {t u : ScheduleTable} (h : t.toJson.same u.toJson = true) :
    t.same u = true := by
  have hkeys : ["schedules", "autoPowerOffEnabled", "autoPowerOffMinutes"].Nodup := by decide
  have hfields := Json.forall₂_same h hkeys rfl
  simp only [List.forall₂_cons, Json.same, Json.nat, decide_eq_true_eq, Int.natCast_inj,
    UInt16.toNat_inj] at hfields
  obtain ⟨hentries, henabled, hminutes, -⟩ := hfields
  simp [same, Json.eq_of_sameItems_map entry_eq_of_toJson hentries, henabled, hminutes]

end ScheduleTable

namespace Settings

variable {s t : Settings}

def blinded (s : Settings) : Settings :=
  { s with
    network := { s.network with wifiPassword := "" }
    mqtt := { s.mqtt with password := "" }
    cloud := { s.cloud with deviceKey := "" } }

attribute [local simp] Section.Content Section.schema Temperature.schema Brew.schema Power.schema
  Network.schema Time.schema Mqtt.schema Cloud.schema Scale.schema Display.schema MachineInfo.schema
  Notifications.schema System.schema Preferences.schema

theorem scalar_blinded_of_shown (s : Settings) (n : Section) :
    ∀ f ∈ n.schema.fields, f.secret = false →
      f.scalar (s.blinded.get n) = f.scalar (s.get n) := by
  have h : n.schema.fields.Forall fun f =>
      f.secret = false → f.scalar (s.blinded.get n) = f.scalar (s.get n) := by
    cases n <;> simp [Field.scalar, get, blinded]
  exact List.forall_iff_forall_mem.mp h

theorem scalar_blinded_of_secret (s : Settings) (n : Section) :
    ∀ f ∈ n.schema.fields, f.secret = true → f.scalar (s.blinded.get n) = .text "" := by
  have h : n.schema.fields.Forall fun f =>
      f.secret = true → f.scalar (s.blinded.get n) = .text "" := by
    cases n <;> simp [Field.scalar, get, blinded, Kind.scalar]
  exact List.forall_iff_forall_mem.mp h

@[simp] theorem sectionJson_blinded (s : Settings) (n : Section) :
    s.blinded.sectionJson n = s.sectionJson n :=
  Schema.toJson_congr (s.scalar_blinded_of_shown n)

@[simp] theorem toJson_blinded (s : Settings) : s.blinded.toJson = s.toJson := by
  simp only [toJson, sectionJson_blinded]
  rfl

theorem get?_toJson_section (s : Settings) (n : Section) :
    s.toJson.get? n.name = some (s.sectionJson n) := by
  apply Json.get?_ofPairs s.nodup_names_toJson
  exact List.mem_append_left _ (List.mem_map_of_mem n.mem_all)

theorem get?_toJson_schedule (s : Settings) :
    s.toJson.get? "schedule" = some s.schedule.toJson := by
  apply Json.get?_ofPairs s.nodup_names_toJson
  exact List.mem_append_right _ (List.mem_singleton_self _)

theorem same_of_toJson (hs : s.Valid) (ht : t.Valid) (h : s.toJson.same t.toJson = true) :
    s.blinded.same t.blinded = true := by
  rw [same, Bool.and_eq_true]
  constructor
  · rw [List.all_eq_true]
    intro n _
    have hsection := Json.same_of_get? h (s.get?_toJson_section n) (t.get?_toJson_section n)
    rw [sameSection, Schema.same, List.all_eq_true]
    intro f hf
    cases hsecret : f.secret with
    | false =>
      rw [scalar_blinded_of_shown s n f hf hsecret, scalar_blinded_of_shown t n f hf hsecret]
      exact n.lawful.same_of_toJson (hs n) (ht n) hsection hf hsecret
    | true =>
      rw [scalar_blinded_of_secret s n f hf hsecret, scalar_blinded_of_secret t n f hf hsecret]
      rfl
  · exact ScheduleTable.same_of_toJson
      (Json.same_of_get? h s.get?_toJson_schedule t.get?_toJson_schedule)

end Settings

end Espresso
