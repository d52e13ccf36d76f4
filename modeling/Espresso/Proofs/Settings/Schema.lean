import Mathlib.Algebra.GroupWithZero.Nat
import Mathlib.Data.List.Nodup
import Mathlib.Data.List.Pairwise
import Espresso.Proofs.Json.Object
import Espresso.Proofs.Settings.Kind
import Espresso.Settings.Schema
import Espresso.Storage.Basic

namespace Espresso

namespace Field

variable {σ : Type}

/-- A setting has the value that it was last given, and keeps it when the section is settled. One
that follows from others cannot be given a value. -/
def Placed (settle : σ → σ) (f : Field σ) : Prop :=
  (∀ s, f.set s (f.get s) = s) ∧
    if f.kind.isDerived then ∀ s a, f.set s a = s
    else (∀ s a, f.get (f.set s a) = a) ∧ ∀ s, f.get (settle s) = f.get s

def Apart (f g : Field σ) : Prop :=
  (∀ s a, f.get (g.set s a) = f.get s) ∧ ∀ s a, g.get (f.set s a) = g.get s

instance symm_apart : Std.Symm (@Apart σ) := ⟨fun _ _ h => ⟨h.2, h.1⟩⟩

variable {settle : σ → σ} {f : Field σ}

theorem Placed.of_derived (h : f.Placed settle) (hd : f.kind.isDerived = true) :
    ∀ s a, f.set s a = s := by
  have hset := h.2
  rwa [if_pos hd] at hset

theorem Placed.of_not_derived (h : f.Placed settle) (hd : f.kind.isDerived = false) :
    (∀ s a, f.get (f.set s a) = a) ∧ ∀ s, f.get (settle s) = f.get s := by
  have hget := h.2
  rwa [hd, if_neg Bool.false_ne_true] at hget

end Field

namespace Schema

variable {σ : Type} {S : Schema σ} {s t : σ} {v : Json}

structure Valid (S : Schema σ) (s : σ) : Prop where
  admits : ∀ f ∈ S.fields, f.kind.Admits (f.get s)
  settled : S.settle s = s

def Readable (S : Schema σ) (s : σ) : Prop := ∀ f ∈ S.fields, f.kind.Readable (f.get s)

def room (S : Schema σ) : Nat :=
  (S.fields.map fun f => Text.size (Json.quote f.key) + f.kind.room + 2).sum + 2

structure Lawful (S : Schema σ) : Prop where
  nonempty : S.fields ≠ []
  keys_nodup : (S.fields.map Field.key).Nodup
  fair : ∀ f ∈ S.fields, f.kind.Fair
  set_derived : ∀ f ∈ S.fields, f.kind.isDerived = true → ∀ s a, f.set s a = s
  valid_initial : S.Valid S.initial
  admits_set : ∀ f ∈ S.fields, ∀ s a, (∀ g ∈ S.fields, g.kind.Admits (g.get s)) →
    f.kind.Admits a → ∀ g ∈ S.fields, g.kind.Admits (g.get (f.set s a))
  valid_settle : ∀ s, (∀ g ∈ S.fields, g.kind.Admits (g.get s)) → S.Valid (S.settle s)
  restore : ∀ s t, S.settle s = s →
    S.settle (S.fields.foldl (fun t f => f.set t (f.get s)) t) = s
  fits : S.room ≤ Store.capacity

structure Separate (S : Schema σ) : Prop where
  keys_nodup : (S.fields.map Field.key).Nodup
  get_set : ∀ f ∈ S.fields, f.kind.isDerived = false → ∀ s a, f.get (f.set s a) = a
  set_get : ∀ f ∈ S.fields, ∀ s, f.set s (f.get s) = s
  get_set_of_ne : ∀ f ∈ S.fields, ∀ g ∈ S.fields, f.key ≠ g.key →
    ∀ s a, f.get (g.set s a) = f.get s
  get_settle : ∀ f ∈ S.fields, f.kind.isDerived = false → ∀ s, f.get (S.settle s) = f.get s
  settle_settle : ∀ s, S.settle (S.settle s) = S.settle s

structure LaidOut (S : Schema σ) : Prop where
  keys_nodup : (S.fields.map Field.key).Nodup
  placed : ∀ f ∈ S.fields, f.Placed S.settle
  apart : S.fields.Pairwise Field.Apart
  settle_settle : ∀ s, S.settle (S.settle s) = S.settle s

theorem LaidOut.separate (h : S.LaidOut) : S.Separate where
  keys_nodup := h.keys_nodup
  get_set f hf hd := ((h.placed f hf).of_not_derived hd).1
  set_get f hf := (h.placed f hf).1
  get_set_of_ne f hf g hg hne := by
    have hfg : f ≠ g := fun he => hne (congrArg Field.key he)
    exact (h.apart.forall hf hg hfg).1
  get_settle f hf hd := ((h.placed f hf).of_not_derived hd).2
  settle_settle := h.settle_settle

theorem LaidOut.admits_set (h : S.LaidOut) {f : Field σ} (hf : f ∈ S.fields) (s : σ) (a : f.α)
    (hs : ∀ g ∈ S.fields, g.kind.Admits (g.get s)) (ha : f.kind.Admits a) :
    ∀ g ∈ S.fields, g.kind.Admits (g.get (f.set s a)) := by
  intro g hg
  by_cases hfg : f = g
  · subst hfg
    have hplaced := h.placed f hf
    cases hd : f.kind.isDerived with
    | true =>
      rw [hplaced.of_derived hd]
      exact hs f hf
    | false =>
      rw [(hplaced.of_not_derived hd).1]
      exact ha
  · rw [(h.apart.forall hf hg hfg).2]
    exact hs g hg

theorem LaidOut.valid_settle (h : S.LaidOut) (s : σ)
    (hs : ∀ g ∈ S.fields, g.kind.Admits (g.get s)) : S.Valid (S.settle s) where
  admits g hg := by
    cases hd : g.kind.isDerived with
    | true => exact Kind.admits_of_isDerived hd _
    | false =>
      rw [((h.placed g hg).of_not_derived hd).2]
      exact hs g hg
  settled := h.settle_settle s

theorem Lawful.valid_patch (h : S.Lawful) (hs : S.Valid s) (v : Json) : S.Valid (S.patch s v) := by
  unfold Schema.patch
  split
  · apply h.valid_settle
    refine List.foldlRecOn (motive := fun t => ∀ g ∈ S.fields, g.kind.Admits (g.get t))
      S.fields _ hs.admits ?_
    intro t ht f hf
    rw [Field.patch]
    cases ha : f.accept _ with
    | none => exact ht
    | some a =>
      obtain ⟨w, -, hw⟩ := Option.bind_eq_some_iff.mp ha
      exact h.admits_set f hf t a ht (Kind.admits_of_accept hw)
  · exact hs

theorem get_foldl_patch {before after : List (Field σ)} {f : Field σ}
    (hf : ∀ s a, f.get (f.set s a) = a)
    (hothers : ∀ g ∈ before ++ after, ∀ s a, f.get (g.set s a) = f.get s)
    (members : Json.Members) (s : σ) :
    f.get ((before ++ f :: after).foldl (fun s f => f.patch members s) s) =
      (f.accept members).getD (f.get s) := by
  have keep (fields : List (Field σ)) (h : ∀ g ∈ fields, ∀ s a, f.get (g.set s a) = f.get s)
      (s : σ) : f.get (fields.foldl (fun s f => f.patch members s) s) = f.get s := by
    refine List.foldlRecOn (motive := fun t => f.get t = f.get s) fields _ rfl ?_
    intro t ht g hg
    rw [Field.patch]
    cases g.accept members with
    | none => exact ht
    | some a => exact (h g hg t a).trans ht
  rw [List.foldl_append, List.foldl_cons, keep after fun g hg => hothers g (List.mem_append_right _ hg),
    Field.patch]
  have hbefore := keep before (fun g hg => hothers g (List.mem_append_left _ hg)) s
  cases f.accept members with
  | none => exact hbefore
  | some a => exact hf _ a

theorem Separate.get_patch (h : S.Separate) {f : Field σ} (hf : f ∈ S.fields)
    (hd : f.kind.isDerived = false) (s : σ) (v : Json) :
    f.get (S.patch s v) = ((v.get? f.key).bind f.kind.accept).getD (f.get s) := by
  obtain ⟨before, after, hfields⟩ := List.append_of_mem hf
  have hothers : ∀ g ∈ before ++ after, ∀ s a, f.get (g.set s a) = f.get s := by
    intro g hg
    have hkeys := h.keys_nodup
    rw [hfields, List.map_append, List.map_cons, List.nodup_middle, List.nodup_cons,
      ← List.map_append] at hkeys
    refine h.get_set_of_ne f hf g ?_ ?_
    · rw [hfields]
      exact List.perm_middle.mem_iff.mpr (List.mem_cons_of_mem f hg)
    · intro hkey
      exact hkeys.1 (hkey ▸ List.mem_map_of_mem hg)
  cases v with
  | object members =>
    show f.get (S.settle _) = _
    rw [h.get_settle f hf hd, hfields]
    exact get_foldl_patch (h.get_set f hf hd) hothers members s
  | _ => rfl

theorem Separate.patch_patch (h : S.Separate) (s : σ) (v : Json) :
    S.patch (S.patch s v) v = S.patch s v := by
  cases v with
  | object members =>
    generalize hu : S.patch s (.object members) = u
    have hsettled : S.settle u = u := by
      rw [← hu]
      exact h.settle_settle _
    -- A setting that takes a value has it already, so that the fold stays where it begins.
    have hfold : S.fields.foldl (fun s f => f.patch members s) u = u := by
      refine List.foldlRecOn (motive := (· = u)) S.fields _ rfl ?_
      rintro t rfl f hf
      rw [Field.patch]
      cases ha : f.accept members with
      | none => rfl
      | some a =>
        obtain ⟨w, -, hw⟩ := Option.bind_eq_some_iff.mp ha
        have hget := h.get_patch hf (Kind.isDerived_eq_false hw) s (.object members)
        have hgiven : f.get t = a := by
          rw [← hu, hget]
          exact congrArg (·.getD (f.get s)) ha
        show f.set t a = t
        rw [← hgiven]
        exact h.set_get f hf t
    show S.settle (S.fields.foldl (fun s f => f.patch members s) u) = u
    rw [hfold, hsettled]
  | _ => rfl

theorem patch_of_count_eq_zero (hs : S.Valid s) (h : S.count v = 0) : S.patch s v = s := by
  unfold count at h
  unfold patch
  split at h
  · next members _ =>
    rw [List.countP_eq_zero] at h
    have hfold : S.fields.foldl (fun s f => f.patch members s) s = s := by
      refine List.foldlRecOn (motive := (· = s)) S.fields _ rfl ?_
      intro t ht f hf
      have hnone : f.accept members = none := by simpa [Field.accepts] using h f hf
      rw [Field.patch, hnone]
      exact ht
    rw [hfold, hs.settled]
  · rfl

theorem size_objectText_le {pairs : List (String × List Char)} :
    Text.size (Json.objectText pairs) ≤
      (pairs.map fun p => Text.size (Json.quote p.1) + Text.size p.2 + 2).sum + 2 := by
  have hjoin (texts : List (List Char)) :
      Text.size (Json.joinTexts texts) ≤ (texts.map fun t => Text.size t + 1).sum := by
    induction texts with
    | nil => exact Nat.le_refl _
    | cons t texts ih =>
      cases texts with
      | nil => exact Nat.le_add_right _ _
      | cons u texts =>
        have hcomma : ','.utf8Size = 1 := by decide
        rw [Json.joinTexts, Text.size_append, Text.size, hcomma, List.map_cons, List.sum_cons]
        · omega
        · exact List.cons_ne_nil _ _
  have hpairs := hjoin (pairs.map fun p => Json.quote p.1 ++ ':' :: p.2)
  have hsum : ((pairs.map fun p => Json.quote p.1 ++ ':' :: p.2).map fun t => Text.size t + 1) =
      pairs.map fun p => Text.size (Json.quote p.1) + Text.size p.2 + 2 := by
    have hcolon : ':'.utf8Size = 1 := by decide
    rw [List.map_map]
    apply List.map_congr_left
    intro p _
    simp only [Function.comp_apply, Text.size_append, Text.size, hcolon]
    omega
  have hopen : '{'.utf8Size = 1 := by decide
  have hclose : '}'.utf8Size = 1 := by decide
  rw [hsum] at hpairs
  simp only [Json.objectText, Text.size, Text.size_append, hopen, hclose]
  omega

theorem Lawful.length_stored_le (h : S.Lawful) (hs : S.Valid s) :
    (Text.toBytes (S.stored s)).length ≤ Store.capacity := by
  have hsum : ∀ fields ⊆ S.fields,
      (fields.map fun f => Text.size (Json.quote f.key) + Text.size (f.scalar s).stored + 2).sum ≤
        (fields.map fun f => Text.size (Json.quote f.key) + f.kind.room + 2).sum := by
    intro fields hf
    induction fields with
    | nil => exact Nat.le_refl _
    | cons f fields ih =>
      obtain ⟨hf, hfields⟩ := List.cons_subset.mp hf
      have hsize : Text.size (f.scalar s).stored ≤ f.kind.room :=
        Kind.size_stored_le (h.fair f hf) (hs.admits f hf)
      have hrest := ih hfields
      rw [List.map_cons, List.sum_cons, List.map_cons, List.sum_cons]
      omega
  have hobject := @size_objectText_le (S.fields.map fun f => (f.key, (f.scalar s).stored))
  rw [List.map_map] at hobject
  have hfits := h.fits
  have hfields := hsum S.fields (List.Subset.refl _)
  rw [room] at hfits
  rw [Text.length_toBytes, stored, Text.utf8ByteSize_ofList]
  exact Nat.le_trans hobject (Nat.le_trans (Nat.add_le_add_right hfields 2) hfits)

def transfer (S : Schema σ) (take : Field σ → Bool) (s t : σ) : σ :=
  S.settle (S.fields.foldl (fun t f => if take f then f.set t (f.get s) else t) t)

theorem transfer_congr {take take' : Field σ → Bool} (h : ∀ f ∈ S.fields, take f = take' f) :
    S.transfer take s t = S.transfer take' s t := by
  refine congrArg S.settle (List.foldl_ext _ _ t ?_)
  intro t f hf
  rw [h f hf]

theorem patch_object {members : Json.Members} {take : Field σ → Bool}
    (h : ∀ f ∈ S.fields, f.accept members = if take f then some (f.get s) else none) (t : σ) :
    S.patch t (.object members) = S.transfer take s t := by
  refine congrArg S.settle (List.foldl_ext _ _ t ?_)
  intro t f hf
  rw [Field.patch, h f hf]
  split <;> rfl

theorem Lawful.transfer_eq (h : S.Lawful) (hs : S.Valid s) {take : Field σ → Bool}
    (ht : ∀ f ∈ S.fields, take f = !f.kind.isDerived) (t : σ) : S.transfer take s t = s := by
  refine Eq.trans (congrArg S.settle (List.foldl_ext _ _ t ?_)) (h.restore s t hs.settled)
  intro t f hf
  rw [ht f hf]
  cases hd : f.kind.isDerived with
  | false => rfl
  | true => exact (h.set_derived f hf hd t _).symm

theorem Lawful.patch_stored (h : S.Lawful) (hs : S.Valid s)
    (hl : ∀ f ∈ S.fields, (f.scalar s).Legible) :
    ∃ v, Json.ofBytes? (Text.toBytes (S.stored s)) = some v ∧
      ∀ t, S.patch t v = S.transfer (fun f => f.kind.retakes (f.get s)) s t := by
  have hwrites : ∀ f ∈ S.fields, ∃ v, Json.Writes (f.scalar s).stored v ∧
      f.kind.accept v = if f.kind.retakes (f.get s) then some (f.get s) else none := by
    intro f hf
    exact Kind.exists_writes (h.fair f hf) (hs.admits f hf) (hl f hf)
  choose! value hvalue haccept using hwrites
  refine ⟨.ofPairs (S.fields.map fun f => (f.key, value f)), ?_, ?_⟩
  · have hdepth : Json.storedDepth = 126 + 1 := rfl
    rw [Json.ofBytes?, Text.ofBytes?_toBytes, Option.bind_some, hdepth, stored]
    exact Json.parse?_objectText 126 h.nonempty hvalue
  · apply patch_object
    intro f hf
    rw [Field.accept, Json.find?_ofMembers h.keys_nodup hf, Option.bind_some, haccept f hf]

theorem Lawful.accept_toJson (h : S.Lawful) (hs : S.Valid s) {f : Field σ} (hf : f ∈ S.fields) :
    f.accept (Json.ofMembers
      ((S.fields.filter fun f => !f.secret).map fun f => (f.key, (f.scalar s).toJson))) =
        if !f.secret && f.kind.retakes (f.get s) then some (f.get s) else none := by
  have hkeys : ((S.fields.filter fun f => !f.secret).map Field.key).Nodup :=
    h.keys_nodup.sublist (List.filter_sublist.map _)
  unfold Field.accept
  cases hsecret : f.secret with
  | false =>
    have hshown : f ∈ S.fields.filter fun f => !f.secret :=
      List.mem_filter.mpr ⟨hf, by rw [hsecret]; rfl⟩
    rw [Json.find?_ofMembers hkeys hshown]
    exact Kind.accept_toJson (h.fair f hf) (hs.admits f hf)
  | true =>
    have hhidden : f.key ∉ ((S.fields.filter fun f => !f.secret).map
        fun f => (f.key, (f.scalar s).toJson)).map Prod.fst := by
      rw [List.map_map, List.mem_map]
      rintro ⟨g, hg, hkey⟩
      obtain ⟨hmem, hg⟩ := List.mem_filter.mp hg
      obtain rfl := List.inj_on_of_nodup_map h.keys_nodup hmem hf hkey
      rw [hsecret] at hg
      cases hg
    rw [Json.find?_ofMembers_eq_none hhidden]
    rfl

theorem Lawful.patch_toJson (h : S.Lawful) (hs : S.Valid s) (t : σ) :
    S.patch t (S.toJson s) =
      S.transfer (fun f => !f.secret && f.kind.retakes (f.get s)) s t :=
  patch_object (fun _ hf => h.accept_toJson hs hf) t

theorem Lawful.count_toJson (h : S.Lawful) (hs : S.Valid s) :
    S.count (S.toJson s) = S.fields.countP fun f => !f.secret && f.kind.retakes (f.get s) := by
  refine List.countP_congr ?_
  intro f hf
  rw [Field.accepts, h.accept_toJson hs hf]
  cases !f.secret && f.kind.retakes (f.get s) <;> rfl

end Schema

end Espresso
