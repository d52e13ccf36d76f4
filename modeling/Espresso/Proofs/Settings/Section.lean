import Espresso.Proofs.Settings.Schema
import Espresso.Settings.Basic

namespace Espresso

namespace Kind

theorem distinct_machineType : Distinct MachineType := by
  intro t
  cases t <;> decide

theorem distinct_heatingStrategy : Distinct HeatingStrategy := by
  intro h
  cases h <;> decide

theorem distinct_firstDay : Distinct FirstDay := by
  intro d
  cases d <;> decide

theorem distinct_temperatureUnit : Distinct TemperatureUnit := by
  intro u
  cases u <;> decide

end Kind

namespace Section

open Settings

attribute [local simp] Content schema Temperature.schema Brew.schema Power.schema Network.schema
  Time.schema Mqtt.schema Cloud.schema Scale.schema Display.schema MachineInfo.schema
  Notifications.schema System.schema Preferences.schema

theorem fair (n : Section) : ∀ f ∈ n.schema.fields, f.kind.Fair := by
  have h : n.schema.fields.Forall fun f => f.kind.Fair := by
    cases n <;> simp +decide [Kind.fair_flag, Kind.fair_derived, Kind.fair_text, Kind.fair_label,
      Kind.fair_whole, Kind.fair_single, Kind.fair_choice, Kind.distinct_firstDay,
      Kind.distinct_heatingStrategy, Kind.distinct_machineType, Kind.distinct_temperatureUnit]
  exact List.forall_iff_forall_mem.mp h

theorem placed (n : Section) : ∀ f ∈ n.schema.fields, f.Placed n.schema.settle := by
  have h : n.schema.fields.Forall (Field.Placed n.schema.settle) := by
    cases n <;> simp [Field.Placed, Kind.isDerived]
  exact List.forall_iff_forall_mem.mp h

theorem apart (n : Section) : n.schema.fields.Pairwise Field.Apart := by
  cases n <;> simp [Field.Apart]

theorem laidOut (n : Section) : n.schema.LaidOut where
  keys_nodup := by cases n <;> decide
  placed := n.placed
  apart := n.apart
  settle_settle := by cases n <;> exact fun _ => rfl

theorem lawful (n : Section) : n.schema.Lawful where
  nonempty := by cases n <;> exact List.cons_ne_nil _ _
  keys_nodup := n.laidOut.keys_nodup
  fair := n.fair
  set_derived f hf := (n.placed f hf).of_derived
  valid_initial := by cases n <;> exact ⟨by decide +kernel, rfl⟩
  admits_set _ hf := n.laidOut.admits_set hf
  valid_settle := n.laidOut.valid_settle
  restore := by
    cases n with
    | network => exact fun _ _ hs => hs
    | _ => exact fun _ _ _ => rfl
  fits := by cases n <;> decide +kernel

theorem separate (n : Section) : n.schema.Separate := n.laidOut.separate

theorem isDerived_eq (n : Section) :
    ∀ f ∈ n.schema.fields, f.kind.isDerived = decide (f.key = "wifiConfigured") := by
  cases n <;> decide

end Section

namespace Settings

def Legible (s : Settings) : Prop :=
  ∀ n : Section, ∀ f ∈ n.schema.fields, (f.scalar (s.get n)).Legible

theorem Network.wifiConfigured_eq {c : Network} (h : Network.schema.Valid c) :
    decide (c.wifiSsid ≠ "") = c.wifiConfigured := congrArg Network.wifiConfigured h.settled

theorem isLabel_eq_false {n : Section} (hn : n ≠ .network) :
    ∀ f ∈ n.schema.fields, f.kind.isLabel = false := by
  cases n with
  | network => exact absurd rfl hn
  | _ => decide

theorem retakes_eq {s : Settings} (hlabel : Text.isHostLabel s.network.hostname = true)
    (n : Section) :
    ∀ f ∈ n.schema.fields, f.kind.retakes (f.get (s.get n)) = !f.kind.isDerived := by
  intro f hf
  by_cases hn : n = .network
  · subst hn
    have hfields : ∀ f ∈ Network.schema.fields,
        f.kind.retakes (f.get s.network) = !f.kind.isDerived := by
      simpa [Network.schema, Kind.retakes, Kind.isDerived] using hlabel
    exact hfields f hf
  · exact Kind.retakes_of_isLabel (isLabel_eq_false hn f hf)

theorem readable {s : Settings} (hlabel : Text.isHostLabel s.network.hostname = true)
    (h : s.Legible) (n : Section) : n.schema.Readable (s.get n) :=
  fun f hf => Kind.readable_iff.mpr ⟨h n f hf, retakes_eq hlabel n f hf⟩

end Settings

end Espresso
