import Espresso.Proofs.Settings.Persistence

namespace Espresso

namespace Kind

def Unfit : {α : Type} → Kind α → Json → Prop
  | _, flag, v => ∀ b, v ≠ .bool b
  | _, whole lo hi, v => ∀ n, v = .int n → n < lo ∨ hi < n
  | _, single lo hi, v => ∀ x, v.single? = some x → Binary.within lo hi x = false
  | _, text _, v => ∀ s, v = .text s → Text.hasControl s = true
  | _, label _, v => ∀ s, v = .text s → Text.hasControl s = true ∨ Text.isHostLabel s = false
  | α, @choice _ _, v => (v.named? : Option α) = none
  | _, derived, _ => True

variable {α : Type} {k : Kind α} {v : Json}

theorem text?_eq_none {limit : Nat} {s : String} :
    text? limit s = none ↔ Text.hasControl s = true := by
  unfold text?
  split <;> simp_all

theorem accept_eq_none_iff : k.accept v = none ↔ k.Unfit v := by
  cases k with
  | flag => cases v <;> simp [accept, Unfit, Json.bool?]
  | whole lo hi =>
    cases v <;> simp [accept, Unfit, Json.int?]
    omega
  | single lo hi => simp [accept, Unfit, Option.filter_eq_none_iff]
  | text limit => cases v <;> simp [accept, Unfit, Json.text?, text?_eq_none]
  | label limit =>
    cases v with
    | text s => cases hs : Text.isHostLabel s <;> simp [accept, Unfit, Json.text?, text?_eq_none, hs]
    | _ => simp [accept, Unfit, Json.text?]
  | choice => rfl
  | derived => exact ⟨fun _ => trivial, fun _ => rfl⟩

end Kind

namespace Settings

theorem set_get (s : Settings) (n : Section) : s.set n (s.get n) = s := by cases n <;> rfl

variable {s : Settings} {n : Section} {f : Field n.Content}

theorem get_patch (hf : f ∈ n.schema.fields) (hk : f.key ≠ "wifiConfigured") (s : Settings)
    (v : Json) :
    f.get ((s.patch n v).get n) = ((v.get? f.key).bind f.kind.accept).getD (f.get (s.get n)) := by
  have hd : f.kind.isDerived = false := (n.isDerived_eq f hf).trans (decide_eq_false hk)
  rw [patch, get_set]
  exact n.separate.get_patch hf hd (s.get n) v

theorem patch_patch (s : Settings) (n : Section) (v : Json) :
    (s.patch n v).patch n v = s.patch n v := by
  rw [patch, patch, get_set, set_set, n.separate.patch_patch]

theorem exists_taken (n : Section) (v : Json) :
    ∃ taken : List String, taken.Nodup ∧ taken.length = count n v ∧
      ∀ key, key ∈ taken ↔ ∃ f ∈ n.schema.fields, f.key = key ∧
        ∃ w, v.get? key = some w ∧ ¬f.kind.Unfit w := by
  have hfit (f : Field n.Content) (members : Json.Members) : f.accepts members = true ↔
      ∃ w, Json.find? f.key members = some w ∧ ¬f.kind.Unfit w := by
    rw [Field.accepts, Field.accept, Option.isSome_iff_ne_none, ne_eq, Option.bind_eq_none_iff]
    simp [Kind.accept_eq_none_iff]
  cases v with
  | object members =>
    refine ⟨(n.schema.fields.filter fun f => f.accepts members).map Field.key,
      n.separate.keys_nodup.sublist (List.filter_sublist.map _), ?_, ?_⟩
    · rw [List.length_map, ← List.countP_eq_length_filter]
      rfl
    · intro key
      simp only [List.mem_map, List.mem_filter, hfit]
      constructor
      · rintro ⟨f, ⟨hf, hw⟩, rfl⟩
        exact ⟨f, hf, rfl, hw⟩
      · rintro ⟨f, hf, rfl, hw⟩
        exact ⟨f, ⟨hf, hw⟩, rfl⟩
  | _ =>
    refine ⟨[], List.nodup_nil, rfl, ?_⟩
    intro key
    refine iff_of_false List.not_mem_nil ?_
    rintro ⟨-, -, -, w, hw, -⟩
    cases hw

/-- A document changes one section, and in it each setting by itself: by what the setting was and by
what the document has under its key. What is unfit leaves its setting as it was. The number of
settings that are taken is that of the keys with something fit; a document that has none changes
nothing, and one that was applied changes nothing more. All settings that come to be are valid. -/
theorem patched_one_by_one (hs : s.Valid) (n : Section) (v : Json) :
    let t := s.patch n v
    (∀ m, m ≠ n → t.get m = s.get m) ∧ t.schedule = s.schedule ∧
    (v.isObject = false → t = s ∧ count n v = 0) ∧
    (∀ f ∈ n.schema.fields, f.key ≠ "wifiConfigured" →
      f.get (t.get n) = ((v.get? f.key).bind f.kind.accept).getD (f.get (s.get n)) ∧
      (∀ w, v.get? f.key = some w → f.kind.Unfit w → f.get (t.get n) = f.get (s.get n)) ∧
      ∀ (s' : Settings) (v' : Json), f.get (s'.get n) = f.get (s.get n) →
        v'.get? f.key = v.get? f.key → f.get ((s'.patch n v').get n) = f.get (t.get n)) ∧
    t.network.wifiConfigured = decide (t.network.wifiSsid ≠ "") ∧
    (∃ taken : List String, taken.Nodup ∧ taken.length = count n v ∧
      ∀ key, key ∈ taken ↔ ∃ f ∈ n.schema.fields, f.key = key ∧
        ∃ w, v.get? key = some w ∧ ¬f.kind.Unfit w) ∧
    (count n v = 0 → t = s) ∧ t.patch n v = t := by
  intro t
  have hzero (h : count n v = 0) : t = s := by
    show s.set n (n.schema.patch (s.get n) v) = s
    rw [Schema.patch_of_count_eq_zero (hs n) h, set_get]
  refine ⟨fun m hm => get_set_of_ne s hm _, schedule_set .., ?_, ?_, ?_, exists_taken n v, hzero,
    patch_patch s n v⟩
  · intro hv
    have hcount : count n v = 0 := by
      cases v with
      | object members => cases hv
      | _ => rfl
    exact ⟨hzero hcount, hcount⟩
  · intro f hf hk
    refine ⟨get_patch hf hk s v, ?_, ?_⟩
    · intro w hw hu
      rw [get_patch hf hk, hw, Option.bind_some, Kind.accept_eq_none_iff.mpr hu]
      rfl
    · intro s' v' hget hv
      rw [get_patch hf hk, get_patch hf hk, hget, hv]
  · exact (Network.wifiConfigured_eq ((hs.patch n v) .network)).symm

theorem patched_one_by_one_network :
    let v := Json.object [("color", .null), ("hostname", .text "my host"), ("wifiSsid", .text "Caf")]
    let t := (default : Settings).patch .network v
    (default : Settings).Valid ∧ count .network v = 1 ∧ t.network = ⟨"Caf", "", true, "brewos"⟩ ∧
      t.patch .network v = t := by
  intro v t
  have hs : (default : Settings).Valid := valid_initial default
  have h := patched_one_by_one hs .network v
  exact ⟨hs, by decide +kernel, rfl, h.2.2.2.2.2.2.2⟩

end Settings

end Espresso
