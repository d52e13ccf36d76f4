import Espresso.Proofs.Settings.Persistence
import Espresso.Settings.Edit

namespace Espresso

namespace Kind

def Safe : {α : Type} → Kind α → α → Prop
  | _, flag, _ => True
  | _, whole lo hi, n => lo ≤ n ∧ n ≤ hi
  | _, single lo hi, x => x.isFinite = true ∧ Binary.within lo hi x = true
  | _, text limit, s => Text.hasControl s = false ∧ (Text.toBytes s).length ≤ limit ∧
      Text.ofBytes? (Text.toBytes s) = some s
  | _, label limit, s => Text.hasControl s = false ∧ (Text.toBytes s).length ≤ limit ∧
      Text.ofBytes? (Text.toBytes s) = some s
  | _, choice, _ => True
  | _, derived, _ => True

theorem safe_of_admits {α : Type} {k : Kind α} {a : α} (hk : k.Fair) (ha : k.Admits a) :
    k.Safe a := by
  have htext {limit : Nat} {s : String} (h : Text.hasControl s = false ∧ s.utf8ByteSize ≤ limit) :
      Text.hasControl s = false ∧ (Text.toBytes s).length ≤ limit ∧
        Text.ofBytes? (Text.toBytes s) = some s :=
    ⟨h.1, (Text.length_toBytes s).trans_le h.2, Text.ofBytes?_toBytes s⟩
  cases k with
  | whole lo hi => exact ha
  | single lo hi => exact ⟨isFinite_of_within hk.1 hk.2 ha, ha⟩
  | text limit => exact htext ha
  | label limit => exact htext ha
  | _ => trivial

end Kind

namespace Settings

variable {s : Settings}

theorem Valid.edit (h : s.Valid) (e : Edit) : (s.edit e).Valid := by
  cases e with
  | patch n fields => exact h.patch n fields
  | patchAll document => exact h.patchAll document
  | reset n => exact h.set n.lawful.valid_initial
  | load n m =>
    show (loadSection m s n).Valid
    rw [loadSection_eq]
    exact h.set (valid_loaded m n)

theorem valid_edits (es : List Edit) : ((default : Settings).edits es).Valid := by
  refine List.foldlRecOn (motive := Valid) es _ (valid_initial default) ?_
  intro t ht e _
  exact ht.edit e

theorem Valid.safe (h : s.Valid) (n : Section) :
    ∀ f ∈ n.schema.fields, f.kind.Safe (f.get (s.get n)) := by
  intro f hf
  exact Kind.safe_of_admits (n.fair f hf) ((h n).admits f hf)

theorem Valid.wifiConfigured (h : s.Valid) :
    s.network.wifiConfigured = true ↔ s.network.wifiSsid ≠ "" := by
  have hs := Network.wifiConfigured_eq (c := s.network) (h .network)
  rw [← hs, decide_eq_true_eq]

theorem Valid.offsets (h : s.Valid) :
    (-720 ≤ s.time.utcOffset ∧ s.time.utcOffset ≤ 840) ∧
      (0 ≤ s.time.dstOffset ∧ s.time.dstOffset ≤ 120) := by
  have htime := Schema.Valid.admits (S := Time.schema) (h .time)
  simp only [Time.schema, List.forall_mem_cons, Kind.Admits] at htime
  exact ⟨htime.2.2.1, htime.2.2.2.2.1⟩

theorem patch_offsets {utc dst : Int} (hutc : -720 ≤ utc ∧ utc ≤ 840) (hdst : 0 ≤ dst ∧ dst ≤ 120)
    (t : Time) : Time.schema.patch t (.object [("dstEnabled", .bool true),
      ("dstOffsetMinutes", .int dst), ("utcOffsetMinutes", .int utc)]) =
        { t with utcOffset := utc, dstEnabled := true, dstOffset := dst } := by
  simp [Schema.patch, Time.schema, Json.members?, Field.patch, Field.accept, Json.find?,
    Kind.accept, Json.int?, Json.bool?, hutc, hdst]

theorem exists_localOffset_edits_iff {offset : Int} :
    (∃ es, ((default : Settings).edits es).time.localOffset = offset) ↔
      -720 ≤ offset ∧ offset ≤ 960 := by
  constructor
  · rintro ⟨es, rfl⟩
    obtain ⟨hutc, hdst⟩ := (valid_edits es).offsets
    unfold Time.localOffset
    split <;> omega
  · rintro ⟨hlow, hhigh⟩
    have hutc : -720 ≤ min offset 840 ∧ min offset 840 ≤ 840 := by omega
    have hdst : 0 ≤ offset - min offset 840 ∧ offset - min offset 840 ≤ 120 := by omega
    refine ⟨[.patch .time (.object [("dstEnabled", .bool true),
      ("dstOffsetMinutes", .int (offset - min offset 840)),
      ("utcOffsetMinutes", .int (min offset 840))])], ?_⟩
    apply (congrArg Time.localOffset (patch_offsets hutc hdst (default : Settings).time)).trans
    rw [Time.localOffset, if_pos rfl]
    dsimp only
    omega

theorem edits_safe (es : List Edit) :
    let s := (default : Settings).edits es
    (∀ n : Section, ∀ f ∈ n.schema.fields, f.kind.Safe (f.get (s.get n))) ∧
    (Binary.within 80 105 s.temperature.brewSetpoint = true ∧
      Binary.within 100 160 s.temperature.steamSetpoint = true ∧
      Binary.within (-10) 10 s.temperature.brewOffset = true ∧
      Binary.within (-10) 10 s.temperature.steamOffset = true) ∧
    (100 ≤ s.power.mainsVoltage ∧ s.power.mainsVoltage ≤ 250) ∧
    Binary.within 1 16 s.power.maxCurrent = true ∧
    (1 ≤ s.mqtt.port ∧ s.mqtt.port ≤ 65535) ∧
    (-720 ≤ s.time.utcOffset ∧ s.time.utcOffset ≤ 840) ∧
    (0 ≤ s.time.dstOffset ∧ s.time.dstOffset ≤ 120) ∧
    (s.network.wifiConfigured = true ↔ s.network.wifiSsid ≠ "") := by
  intro s
  have h : s.Valid := valid_edits es
  have htemperature := Schema.Valid.admits (S := Temperature.schema) (h .temperature)
  have hpower := Schema.Valid.admits (S := Power.schema) (h .power)
  have hmqtt := Schema.Valid.admits (S := Mqtt.schema) (h .mqtt)
  have htime := Schema.Valid.admits (S := Time.schema) (h .time)
  simp only [Temperature.schema, Power.schema, Mqtt.schema, Time.schema, List.forall_mem_cons,
    Kind.Admits] at htemperature hpower hmqtt htime
  exact ⟨h.safe, ⟨htemperature.1, htemperature.2.1, htemperature.2.2.1, htemperature.2.2.2.1⟩,
    hpower.1, hpower.2.1, hmqtt.2.2.1, htime.2.2.1, htime.2.2.2.2.1, h.wifiConfigured⟩

end Settings

end Espresso
