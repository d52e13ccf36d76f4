import Espresso.Proofs.Settings.Edit
import Espresso.Proofs.Settings.Ranges

namespace Espresso

namespace Text

variable {s : String} {c : Char} {limit : Nat}

def isLabelChar (c : Char) : Bool := c.isAlphanum || c = '-'

theorem isHostLabel_iff : isHostLabel s = true ↔ s.toList ≠ [] ∧ s.toList.head? ≠ some '-' ∧
    s.toList.getLast? ≠ some '-' ∧ ∀ c ∈ s.toList, isLabelChar c = true := by
  simp only [isHostLabel, isLabelChar, Bool.and_eq_true, List.all_eq_true, decide_eq_true_eq,
    and_assoc]

theorem toNat_of_isLabelChar (h : isLabelChar c = true) : 32 ≤ c.toNat ∧ c.toNat < 127 := by
  change ((65 ≤ c.val ∧ c.val ≤ 90 : Bool) || (97 ≤ c.val && c.val ≤ 122) ||
    (48 ≤ c.val && c.val ≤ 57) || c = '-') = true at h
  simp only [Bool.or_eq_true, Bool.and_eq_true, decide_eq_true_eq, UInt32.le_iff_toNat_le] at h
  change (((65 ≤ c.toNat ∧ c.toNat ≤ 90) ∨ (97 ≤ c.toNat ∧ c.toNat ≤ 122)) ∨
    (48 ≤ c.toNat ∧ c.toNat ≤ 57)) ∨ c = '-' at h
  rcases h with ((h | h) | h) | rfl
  · omega
  · omega
  · omega
  · decide

theorem utf8Size_of_isLabelChar (h : isLabelChar c = true) : c.utf8Size = 1 := by
  have hc : c.val ≤ 0x7F := UInt32.le_iff_toNat_le.mpr (Nat.le_of_lt (toNat_of_isLabelChar h).2)
  exact if_pos hc

theorem isControl_of_isLabelChar (h : isLabelChar c = true) : isControl c = false := by
  obtain ⟨hlow, hhigh⟩ := toNat_of_isLabelChar h
  have hspace : ¬c.val < 0x20 := fun hc => Nat.not_lt.mpr hlow (UInt32.lt_iff_toNat_lt.mp hc)
  have hdelete : ¬0x7F ≤ c.val := fun hc => Nat.not_le.mpr hhigh (UInt32.le_iff_toNat_le.mp hc)
  simp only [isControl, hspace, hdelete, decide_false, Bool.false_and, Bool.or_false]

theorem hasControl_eq_false (h : isHostLabel s = true) : hasControl s = false := by
  refine List.any_eq_false.mpr ?_
  intro c hc
  rw [isControl_of_isLabelChar ((isHostLabel_iff.mp h).2.2.2 c hc)]
  exact Bool.false_ne_true

theorem clipChars_eq_take {cs : List Char} (h : ∀ c ∈ cs, isLabelChar c = true) (limit : Nat) :
    clipChars limit cs = cs.take limit := by
  induction cs generalizing limit with
  | nil => rw [clipChars, List.take_nil]
  | cons c cs ih =>
    have hsize : c.utf8Size = 1 := utf8Size_of_isLabelChar (h c (List.mem_cons_self ..))
    have hrest (limit : Nat) := ih (fun d hd => h d (List.mem_cons_of_mem _ hd)) limit
    rw [clipChars, hsize]
    cases limit with
    | zero => rfl
    | succ limit => rw [if_pos (Nat.le_add_left ..), List.take_succ_cons, Nat.add_sub_cancel, hrest]

theorem toList_clip (h : isHostLabel s = true) (limit : Nat) :
    (clip limit s).toList = s.toList.take limit := by
  rw [clip, String.toList_ofList, clipChars_eq_take (isHostLabel_iff.mp h).2.2.2]

theorem begins_clip (h : isHostLabel s = true) (hl : limit ≠ 0) :
    (clip limit s).toList ≠ [] ∧ (clip limit s).toList.head? ≠ some '-' ∧
      ∀ c ∈ (clip limit s).toList, isLabelChar c = true := by
  obtain ⟨hne, hhead, -, hchars⟩ := isHostLabel_iff.mp h
  rw [toList_clip h]
  refine ⟨?_, ?_, fun c hc => hchars c (List.mem_of_mem_take hc)⟩
  · rw [Ne, List.take_eq_nil_iff, not_or]
    exact ⟨hl, hne⟩
  · rwa [List.head?_take, if_neg hl]

theorem isHostLabel_clip (h : isHostLabel s = true) :
    isHostLabel (clip (limit + 1) s) = true ↔ s.toList[limit]? ≠ some '-' := by
  obtain ⟨hne, hhead, hchars⟩ := begins_clip h (Nat.succ_ne_zero limit)
  have hlast : (clip (limit + 1) s).toList.getLast? = (s.toList[limit]?).or s.toList.getLast? := by
    rw [toList_clip h, List.getLast?_take, if_neg (Nat.succ_ne_zero _), Nat.add_sub_cancel]
  rw [isHostLabel_iff, hlast]
  constructor
  · rintro ⟨-, -, hl, -⟩ heq
    rw [heq] at hl
    exact hl rfl
  · intro hl
    refine ⟨hne, hhead, ?_, hchars⟩
    cases hc : s.toList[limit]? with
    | none => exact (isHostLabel_iff.mp h).2.2.1
    | some c => rwa [hc] at hl

end Text

namespace Settings

variable {m : Medium} {s t : Settings} {label : String}

def offered? (v : Json) : Option String :=
  ((v.get? "hostname").bind Json.text?).filter Text.isHostLabel

def Edit.chosen (label : String) (e : Edit) : String :=
  (e.documents .network).foldl (fun label v => (offered? v).getD label)
    (if e.restarts .network then "brewos" else label)

def chosenLabel (es : List Edit) : String := es.foldl Edit.chosen "brewos"

theorem accept_label (v : Json) : (Kind.label 31).accept v =
    (v.text?.filter Text.isHostLabel).map (Text.clip 31) := by
  show (v.text?.filter Text.isHostLabel).bind (Kind.text? 31) = _
  cases h : v.text?.filter Text.isHostLabel with
  | none => rfl
  | some label =>
    have hlabel := (Option.filter_eq_some_iff.mp h).2
    rw [Option.bind_some, Kind.text?, Text.hasControl_eq_false hlabel]
    rfl

theorem hostname_patch (c : Network) (v : Json) :
    (Network.schema.patch c v).hostname = ((offered? v).map (Text.clip 31)).getD c.hostname := by
  have hpatch : (Network.schema.patch c v).hostname =
      ((v.get? "hostname").bind (Kind.label 31).accept).getD c.hostname :=
    Section.network.separate.get_patch (f := Network.schema.fields[3]) (List.getElem_mem _) rfl c v
  rw [hpatch, offered?]
  cases v.get? "hostname" with
  | none => rfl
  | some w => rw [Option.bind_some, accept_label, Option.bind_some]

theorem hostname_edit (e : Edit) (h : s.network.hostname = Text.clip 31 label) :
    (s.edit e).network.hostname = Text.clip 31 (e.chosen label) := by
  -- The name is cut and no longer tells the label, so the label is followed beside the section.
  have hfold (documents : List Json) (c : Network) (label : String) :
      c.hostname = Text.clip 31 label → (documents.foldl Network.schema.patch c).hostname =
        Text.clip 31 (documents.foldl (fun label v => (offered? v).getD label) label) := by
    induction documents generalizing c label with
    | nil => exact id
    | cons v documents ih =>
      intro hc
      rw [List.foldl_cons, List.foldl_cons]
      apply ih
      rw [hostname_patch, hc]
      cases offered? v <;> rfl
  have hedit : (s.edit e).network = (e.documents .network).foldl Network.schema.patch
      (if e.restarts .network then Network.schema.initial else s.network) :=
    get_edit s e .network
  rw [hedit]
  apply hfold
  split
  · decide
  · exact h

theorem hostname_edits (es : List Edit) (h : s.network.hostname = Text.clip 31 label) :
    (s.edits es).network.hostname = Text.clip 31 (es.foldl Edit.chosen label) := by
  induction es generalizing s label with
  | nil => exact h
  | cons e es ih => exact ih (hostname_edit e h)

theorem isHostLabel_chosenLabel (es : List Edit) : Text.isHostLabel (chosenLabel es) = true := by
  have hfirst : Text.isHostLabel "brewos" = true := by decide
  refine List.foldlRecOn (motive := (Text.isHostLabel · = true)) es _ hfirst ?_
  intro label hlabel e _
  refine List.foldlRecOn (motive := (Text.isHostLabel · = true)) (e.documents .network) _ ?_ ?_
  · split
    · exact hfirst
    · exact hlabel
  · intro label hlabel v _
    cases h : offered? v with
    | none => exact hlabel
    | some chosen => exact (Option.filter_eq_some_iff.mp h).2

theorem transfer_stored_network {c : Network} (hc : Network.schema.Valid c) :
    Network.schema.transfer (fun f => f.kind.retakes (f.get c)) c Network.schema.initial =
      if Text.isHostLabel c.hostname then c else { c with hostname := "brewos" } := by
  have htransfer : Network.schema.transfer (fun f => f.kind.retakes (f.get c)) c
      Network.schema.initial = { c with
        wifiConfigured := c.wifiSsid ≠ ""
        hostname := if Text.isHostLabel c.hostname then c.hostname else "brewos" } := by
    cases h : Text.isHostLabel c.hostname <;>
      simp only [Schema.transfer, Network.schema, List.foldl_cons, List.foldl_nil, Kind.retakes, h,
        if_true, Bool.false_eq_true, if_false]
  rw [htransfer, Network.wifiConfigured_eq hc]
  split <;> rfl

theorem network_loadSection_saveSection (hs : Network.schema.Valid s.network) (hm : m.Ready)
    (t : Settings) : (loadSection (s.saveSection .network m).2 t .network).network =
      if Text.isHostLabel s.network.hostname then s.network
      else { s.network with hostname := "brewos" } := by
  have hl : ∀ f ∈ Network.schema.fields, (f.scalar s.network).Legible := by
    simp [Network.schema, Field.scalar, Kind.scalar, Scalar.Legible]
  have hloaded := loaded_of_stored (n := .network) hs hl (read_saveSection (n := .network) hs hm)
  rw [loadSection_eq, hloaded]
  exact transfer_stored_network hs

/-- However the settings are changed, the host name is the beginning of the host label that was
chosen last. It is a label itself, and comes back from the store, just if it was not cut right
behind a hyphen. -/
theorem hostname_of_edits (es : List Edit) :
    let s := (default : Settings).edits es
    let label := chosenLabel es
    Text.isHostLabel label = true ∧
    s.network.hostname = Text.clip 31 label ∧
    (Text.toBytes s.network.hostname).length ≤ 31 ∧
    (s.network.hostname.toList ≠ [] ∧ s.network.hostname.toList.head? ≠ some '-' ∧
      ∀ c ∈ s.network.hostname.toList, Text.isLabelChar c = true) ∧
    (Text.isHostLabel s.network.hostname = true ↔ label.toList[30]? ≠ some '-') ∧
    ∀ m t, m.Ready → (loadSection (s.saveSection .network m).2 t .network).network =
      if label.toList[30]? = some '-' then { s.network with hostname := "brewos" }
      else s.network := by
  intro s label
  have hlabel : Text.isHostLabel label = true := isHostLabel_chosenLabel es
  have hclip : s.network.hostname = Text.clip 31 label := hostname_edits es (by decide)
  have hcut : Text.isHostLabel s.network.hostname = true ↔ label.toList[30]? ≠ some '-' := by
    rw [hclip]
    exact Text.isHostLabel_clip hlabel
  refine ⟨hlabel, hclip, ?_, ?_, hcut, ?_⟩
  · rw [hclip, Text.length_toBytes]
    exact Text.utf8ByteSize_clip_le 31 label
  · rw [hclip]
    exact Text.begins_clip hlabel (by decide)
  · intro m t hm
    rw [network_loadSection_saveSection (valid_edits es .network) hm]
    by_cases h : label.toList[30]? = some '-'
    · rw [if_pos h, if_neg fun hhost => hcut.mp hhost h]
    · rw [if_neg h, if_pos (hcut.mpr h)]

theorem hostname_of_edits_kitchen :
    let es : List Edit := [.patch .network (.object [("hostname", .text "kitchen-2")])]
    let m := Medium.reliable .empty
    let s := (default : Settings).edits es
    m.Ready ∧ s.network.hostname = "kitchen-2" ∧
      (loadSection (s.saveSection .network m).2 default .network).network = s.network := by
  intro es m s
  have hm : m.Ready := ⟨rfl, fun _ => rfl⟩
  obtain ⟨-, hclip, -, -, -, hload⟩ := hostname_of_edits es
  exact ⟨hm, hclip.trans (by decide), (hload m default hm).trans (if_neg (by decide))⟩

/-- A label is tried whole and cut afterwards, so that a host name may be taken that is none. It is
refused when it is loaded. -/
theorem hostname_cut_at_hyphen :
    let s := (default : Settings).edits
      [.patch .network (.object [("hostname", .text "espresso-machine-in-the-office-2")])]
    s.network.hostname = "espresso-machine-in-the-office-" ∧
    Text.isHostLabel s.network.hostname = false ∧
    (loadSection (s.saveSection .network (.reliable .empty)).2 s .network).network.hostname =
      "brewos" := by
  intro s
  have hhost : Text.isHostLabel s.network.hostname = false := by decide +kernel
  refine ⟨by decide +kernel, hhost, ?_⟩
  rw [network_loadSection_saveSection (valid_edits _ .network) ⟨rfl, fun _ => rfl⟩, hhost]
  rfl

end Settings

end Espresso
