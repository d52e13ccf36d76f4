import Espresso.Text

namespace Espresso.Text

variable {limit : Nat} {cs ds : List Char} {s : String}

theorem size_append (cs ds : List Char) : size (cs ++ ds) = size cs + size ds := by
  induction cs with
  | nil => simp [size]
  | cons c cs ih =>
    rw [List.cons_append, size, size, ih]
    omega

theorem size_ascii {cs : List Char} (h : ∀ c ∈ cs, c.utf8Size = 1) : size cs = cs.length := by
  induction cs with
  | nil => rfl
  | cons c cs ih =>
    rw [size, h c (List.mem_cons_self ..), ih fun d hd => h d (List.mem_cons_of_mem _ hd),
      List.length_cons]
    omega

theorem utf8ByteSize_eq (s : String) : s.utf8ByteSize = size s.toList := by
  rw [← utf8ByteSize_ofList, String.ofList_toList]

theorem toList_clip_eq (limit : Nat) (s : String) :
    (clip limit s).toList = clipChars limit s.toList :=
  String.toList_ofList

theorem clipChars_begins (limit : Nat) (cs : List Char) : clipChars limit cs <+: cs := by
  induction cs generalizing limit with
  | nil => exact List.prefix_rfl
  | cons c cs ih =>
    rw [clipChars]
    split
    · exact List.cons_prefix_cons.mpr ⟨rfl, ih _⟩
    · exact List.nil_prefix

theorem begins_clipChars (hb : ds <+: cs) (hs : size ds ≤ limit) : ds <+: clipChars limit cs := by
  induction cs generalizing ds limit with
  | nil => exact hb
  | cons c cs ih =>
    rcases List.prefix_cons_iff.mp hb with rfl | ⟨rest, rfl, hrest⟩
    · exact List.nil_prefix
    · rw [size] at hs
      rw [clipChars, if_pos (by omega)]
      exact List.cons_prefix_cons.mpr ⟨rfl, ih hrest (by omega)⟩

theorem size_le_of_begins (h : ds <+: cs) : size ds ≤ size cs := by
  obtain ⟨rest, rfl⟩ := h
  rw [size_append]
  exact Nat.le_add_right ..

theorem clipChars_eq_self (h : size cs ≤ limit) : clipChars limit cs = cs :=
  (clipChars_begins limit cs).eq_of_length_le (begins_clipChars List.prefix_rfl h).length_le

theorem clip_eq_self (h : s.utf8ByteSize ≤ limit) : clip limit s = s := by
  rw [utf8ByteSize_eq] at h
  rw [clip, clipChars_eq_self h, String.ofList_toList]

theorem hasControl_clip (h : hasControl s = false) : hasControl (clip limit s) = false := by
  rw [hasControl, List.any_eq_false] at h ⊢
  intro c hc
  rw [toList_clip_eq] at hc
  exact h c ((clipChars_begins limit _).subset hc)

theorem clip_eq_self_iff : clip limit s = s ↔ s.utf8ByteSize ≤ limit := by
  constructor
  · intro h
    rw [← h]
    exact utf8ByteSize_clip_le limit s
  · exact clip_eq_self

theorem exists_next (h : limit < size cs) : ∃ c rest,
    cs = clipChars limit cs ++ c :: rest ∧ limit < size (clipChars limit cs) + c.utf8Size := by
  obtain ⟨rest, hrest⟩ := clipChars_begins limit cs
  cases rest with
  | nil =>
    have hfits := size_clipChars_le limit cs
    rw [List.append_nil] at hrest
    rw [hrest] at hfits
    omega
  | cons c rest =>
    refine ⟨c, rest, hrest.symm, ?_⟩
    have hbegins : clipChars limit cs ++ [c] <+: cs := ⟨rest, by rw [List.append_assoc]; exact hrest⟩
    refine Nat.lt_of_not_le fun hfits => ?_
    have hsize : size (clipChars limit cs ++ [c]) ≤ limit := by
      rw [size_append]
      exact hfits
    have hlength := (begins_clipChars hbegins hsize).length_le
    rw [List.length_append, List.length_singleton] at hlength
    omega

theorem clipChars_clipChars (limit other : Nat) (cs : List Char) :
    clipChars limit (clipChars other cs) = clipChars (min limit other) cs := by
  have hinner := clipChars_begins other cs
  have houter := clipChars_begins limit (clipChars other cs)
  have hboth := size_clipChars_le (min limit other) cs
  refine List.IsPrefix.eq_of_length_le ?_ (List.IsPrefix.length_le ?_)
  · have hsize := size_clipChars_le limit (clipChars other cs)
    have hsize' := Nat.le_trans (size_le_of_begins houter) (size_clipChars_le other cs)
    exact begins_clipChars (houter.trans hinner) (Nat.le_min.mpr ⟨hsize, hsize'⟩)
  · apply begins_clipChars
    · exact begins_clipChars (clipChars_begins ..) (Nat.le_trans hboth (Nat.min_le_right ..))
    · exact Nat.le_trans hboth (Nat.min_le_left ..)

theorem clip_clip (limit other : Nat) (s : String) :
    clip limit (clip other s) = clip (min limit other) s := by
  rw [clip, toList_clip_eq, clipChars_clipChars]
  rfl

theorem toBytes_append (s t : String) : toBytes (s ++ t) = toBytes s ++ toBytes t := by
  simp [toBytes]

theorem exists_clip_append (limit : Nat) (s : String) : ∃ rest, s = clip limit s ++ rest := by
  obtain ⟨rest, hrest⟩ := clipChars_begins limit s.toList
  refine ⟨String.ofList rest, ?_⟩
  rw [clip, ← String.ofList_append, hrest, String.ofList_toList]

theorem boundary_le_clip {p : String.Pos.Raw} (hp : p.IsValid s) (hl : p.byteIdx ≤ limit) :
    p.byteIdx ≤ (clip limit s).utf8ByteSize := by
  obtain ⟨t, rest, rfl, rfl⟩ := String.Pos.Raw.isValid_iff_exists_append.mp hp
  have hbegins : t.toList <+: (t ++ rest).toList := ⟨rest.toList, String.toList_append.symm⟩
  rw [String.byteIdx_rawEndPos, utf8ByteSize_eq] at hl ⊢
  rw [utf8ByteSize_eq, toList_clip_eq]
  exact size_le_of_begins (begins_clipChars hbegins hl)

/-- A text that is cut keeps its longest beginning that ends between characters and fits. All of it is
kept just if it fits, and else the next character does not fit any more. A text that was cut is not
cut again, and of two cuts the shorter one decides. -/
theorem clip_keeps_longest (limit : Nat) (s : String) :
    (toBytes (clip limit s) <+: toBytes s ∧
      (⟨(clip limit s).utf8ByteSize⟩ : String.Pos.Raw).IsValid s ∧
      (clip limit s).utf8ByteSize ≤ limit ∧
      ∀ p : String.Pos.Raw, p.IsValid s → p.byteIdx ≤ limit →
        p.byteIdx ≤ (clip limit s).utf8ByteSize) ∧
    (clip limit s = s ↔ s.utf8ByteSize ≤ limit) ∧
    (clip limit s ≠ s → ∃ c rest, s.toList = (clip limit s).toList ++ c :: rest ∧
      limit < (clip limit s).utf8ByteSize + c.utf8Size) ∧
    clip limit (clip limit s) = clip limit s ∧
    ∀ other, clip limit (clip other s) = clip (min limit other) s := by
  obtain ⟨rest, hrest⟩ := exists_clip_append limit s
  have hfits : (clip limit s).utf8ByteSize ≤ limit := utf8ByteSize_clip_le limit s
  refine ⟨⟨?_, ?_, hfits, fun _ => boundary_le_clip⟩, clip_eq_self_iff, ?_, clip_eq_self hfits,
    fun other => clip_clip limit other s⟩
  · exact ⟨toBytes rest, by rw [← toBytes_append, ← hrest]⟩
  · exact String.Pos.Raw.isValid_iff_exists_append.mpr ⟨clip limit s, rest, hrest, rfl⟩
  · intro hne
    have hlong : limit < size s.toList := by
      rw [← utf8ByteSize_eq]
      exact Nat.lt_of_not_le fun h => hne (clip_eq_self h)
    rw [utf8ByteSize_eq (clip limit s), toList_clip_eq]
    exact exists_next hlong

theorem clip_keeps_longest_of_accented :
    let s := "cafés"
    clip 4 s = "caf" ∧ (⟨3⟩ : String.Pos.Raw).IsValid s ∧
    (∀ p : String.Pos.Raw, p.IsValid s → p.byteIdx ≤ 4 → p.byteIdx ≤ 3) ∧
    (∃ c rest, s.toList = "caf".toList ++ c :: rest ∧ 4 < 3 + c.utf8Size) ∧
    clip 4 (clip 5 s) = "caf" := by
  intro s
  have hclip : clip 4 s = "caf" := by decide +kernel
  obtain ⟨⟨-, hvalid, -, hlongest⟩, -, hnext, -, hclips⟩ := clip_keeps_longest 4 s
  rw [hclip] at hvalid hlongest hnext
  exact ⟨hclip, hvalid, hlongest, hnext (by decide), (hclips 5).trans hclip⟩

end Espresso.Text
