import Espresso.Proofs.Json.Value

namespace Espresso

namespace Json

section Items

variable {α : Type} {β : Type*} {item : List Char → Option (α × List Char)} {t : β → List Char} {a : β → α}

theorem sequence_joinTexts {items : List β} {fuel : Nat} {rest : List Char} (hne : items ≠ [])
    (hfuel : items.length ≤ fuel)
    (h : ∀ b ∈ items, ∀ rest, EndsMember rest → item (t b ++ rest) = some (a b, rest)) :
    sequence '}' item fuel (joinTexts (items.map t) ++ '}' :: rest) = some (items.map a, rest) := by
  induction items generalizing fuel with
  | nil => exact absurd rfl hne
  | cons b items ih =>
    obtain ⟨fuel, rfl⟩ := Nat.exists_eq_add_one_of_ne_zero (Nat.ne_zero_of_lt hfuel)
    cases items with
    | nil =>
      have hb := h b (List.mem_cons_self ..) ('}' :: rest) ⟨'}', rest, rfl, .inr rfl⟩
      simp only [List.map_cons, List.map_nil, joinTexts, sequence, hb]
      rfl
    | cons b' items =>
      have hb := h b (List.mem_cons_self ..)
        (',' :: (joinTexts ((b' :: items).map t) ++ '}' :: rest)) ⟨',', _, rfl, .inl rfl⟩
      have hrest := ih (List.cons_ne_nil _ _) (Nat.le_of_succ_le_succ hfuel)
        fun b hb => h b (List.mem_cons_of_mem _ hb)
      have hjoin : joinTexts ((b :: b' :: items).map t) =
          t b ++ ',' :: joinTexts ((b' :: items).map t) := rfl
      rw [hjoin, List.append_assoc, List.cons_append, sequence, hb]
      dsimp only
      rw [skipBlank_cons (by decide)]
      dsimp only
      rw [if_pos rfl, hrest]
      rfl

theorem length_le_joinTexts {texts : List (List Char)} (h : ∀ t ∈ texts, t ≠ []) :
    texts.length ≤ (joinTexts texts).length := by
  induction texts with
  | nil => exact Nat.le_refl _
  | cons t texts ih =>
    have ht : 0 < t.length := List.length_pos_iff.mpr (h t (List.mem_cons_self ..))
    have hrest := ih fun u hu => h u (List.mem_cons_of_mem _ hu)
    cases texts with
    | nil => exact ht
    | cons u texts =>
      simp only [joinTexts, List.length_cons, List.length_append] at hrest ⊢
      omega

end Items

theorem member_quote {key : String} {t rest : List Char} {v : Json} {depth : Nat} (h : Writes t v)
    (hr : EndsMember rest) :
    member (value depth) (quote key ++ ':' :: t ++ rest) = some ((key, v), rest) := by
  have hq : quote key ++ ':' :: t ++ rest =
      '"' :: (key.toList.flatMap escapeChar ++ '"' :: ':' :: (t ++ rest)) := by simp [quote]
  have hquote : isBlank '"' = false := by decide
  have hcolon : isBlank ':' = false := by decide
  simp only [hq, member, skipBlank_cons hquote, quoted_flatMap_escapeChar, skipBlank_cons hcolon,
    h depth rest hr, Option.map_some, String.ofList_toList]

theorem parse?_objectText {β : Type*} {items : List β} {key : β → String} {t : β → List Char}
    {v : β → Json} (depth : Nat) (hne : items ≠ []) (h : ∀ b ∈ items, Writes (t b) (v b)) :
    parse? (depth + 1) (String.ofList (objectText (items.map fun b => (key b, t b)))) =
      some (ofPairs (items.map fun b => (key b, v b))) := by
  have htext : objectText (items.map fun b => (key b, t b)) =
      '{' :: (joinTexts (items.map fun b => quote (key b) ++ ':' :: t b) ++ ['}']) := by
    rw [objectText, List.map_map]
    rfl
  have hfuel : items.length ≤
      (joinTexts (items.map fun b => quote (key b) ++ ':' :: t b) ++ ['}']).length := by
    have hlength := @length_le_joinTexts (items.map fun b => quote (key b) ++ ':' :: t b) (by
      intro t ht
      obtain ⟨b, -, rfl⟩ := List.mem_map.mp ht
      exact List.append_ne_nil_of_left_ne_nil (List.cons_ne_nil _ _) _)
    rw [List.length_map] at hlength
    rw [List.length_append]
    omega
  have hmembers : sequence '}' (member (value depth))
      (joinTexts (items.map fun b => quote (key b) ++ ':' :: t b) ++ ['}']).length
      (joinTexts (items.map fun b => quote (key b) ++ ':' :: t b) ++ ['}']) =
        some (items.map fun b => (key b, v b), []) :=
    sequence_joinTexts hne hfuel fun b hb rest hr => member_quote (h b hb) hr
  obtain ⟨cs, hcs⟩ : ∃ cs, joinTexts (items.map fun b => quote (key b) ++ ':' :: t b) ++ ['}'] =
      '"' :: cs := by
    obtain ⟨b, items, rfl⟩ := List.exists_cons_of_ne_nil hne
    cases items <;> exact ⟨_, rfl⟩
  have hquote : isBlank '"' = false := by decide
  have hbrace : isBlank '{' = false := by decide
  rw [hcs] at htext hmembers
  rw [parse?, String.toList_ofList, htext]
  have hne : '"' ≠ '}' := by decide
  simp only [value, skipBlank_cons hbrace, enclosed, skipBlank_cons hquote, if_neg hne, hmembers]
  rfl

section Members

variable {key : String} {value : Json}

theorem find?_cons (k : String) (members : Members) :
    find? k ((key, value) :: members) = if key = k then some value else find? k members := by
  by_cases h : key = k <;> simp [find?, h]

theorem find?_insert (k : String) (members : Members) :
    find? k (insert key value members) = if key = k then some value else find? k members := by
  induction members with
  | nil =>
    by_cases h : key = k <;> simp [insert, find?, h]
  | cons p members ih =>
    obtain ⟨k', v'⟩ := p
    rw [insert]
    split
    · by_cases h : key = k <;> simp [find?, h]
    · split
      · next hk =>
        by_cases h : key = k
        · simp [find?, h]
        · rw [hk] at h
          simp [find?, h, hk]
      · next hk =>
        rw [find?, find?] at ih ⊢
        by_cases h' : k' = k
        · subst h'
          simp [hk]
        · simpa [h'] using ih

theorem find?_eq_none {members : Members} (h : key ∉ members.map Prod.fst) :
    find? key members = none := by
  rw [find?, List.find?_eq_none.mpr, Option.map_none]
  intro p hp heq
  exact h (List.mem_map.mpr ⟨p, hp, of_decide_eq_true heq⟩)

theorem filterMap_eq_find? {members : Members} (h : (members.map Prod.fst).Nodup) (k : String) :
    (members.filterMap fun (key, value) => if key = k then some value else none) =
      (find? k members).toList := by
  induction members with
  | nil => rfl
  | cons p members ih =>
    obtain ⟨key, value⟩ := p
    obtain ⟨hfirst, hrest⟩ := List.nodup_cons.mp h
    rw [List.filterMap_cons, find?_cons, ih hrest]
    dsimp only
    by_cases hk : key = k
    · rw [if_pos hk, if_pos hk, find?_eq_none (hk ▸ hfirst)]
      rfl
    · rw [if_neg hk, if_neg hk]

theorem find?_foldl_insert {pairs : List (String × Json)} (h : key ∉ pairs.map Prod.fst)
    (members : Members) :
    find? key (pairs.foldl (fun members p => insert p.1 p.2 members) members) =
      find? key members := by
  induction pairs generalizing members with
  | nil => rfl
  | cons p pairs ih =>
    rw [List.map_cons, List.mem_cons, not_or] at h
    rw [List.foldl_cons, ih h.2, find?_insert, if_neg (Ne.symm h.1)]

theorem find?_ofMembers_eq_none {pairs : List (String × Json)} (h : key ∉ pairs.map Prod.fst) :
    find? key (ofMembers pairs) = none := find?_foldl_insert h []

theorem find?_ofMembers_of_mem {pairs : List (String × Json)} (hkeys : (pairs.map Prod.fst).Nodup)
    (h : (key, value) ∈ pairs) : find? key (ofMembers pairs) = some value := by
  have hpresent (pairs : List (String × Json)) (members : Members)
      (hkeys : (pairs.map Prod.fst).Nodup) (h : (key, value) ∈ pairs) :
      find? key (pairs.foldl (fun members p => insert p.1 p.2 members) members) = some value := by
    induction pairs generalizing members with
    | nil => cases h
    | cons p pairs ih =>
      rw [List.map_cons, List.nodup_cons] at hkeys
      rw [List.foldl_cons]
      rcases List.mem_cons.mp h with rfl | h
      · rw [find?_foldl_insert hkeys.1, find?_insert, if_pos rfl]
      · exact ih _ hkeys.2 h
  exact hpresent pairs [] hkeys h

theorem find?_ofMembers {β : Type*} {items : List β} {key : β → String} {v : β → Json}
    (hkeys : (items.map key).Nodup) {b : β} (hb : b ∈ items) :
    find? (key b) (ofMembers (items.map fun b => (key b, v b))) = some (v b) := by
  apply find?_ofMembers_of_mem
  · rwa [List.map_map]
  · exact List.mem_map_of_mem hb

theorem mem_of_find? {members : Members} (h : find? key members = some value) :
    (key, value) ∈ members := by
  obtain ⟨p, hp, rfl⟩ := Option.map_eq_some_iff.mp h
  have hkey : p.1 = key := by simpa using List.find?_some hp
  rw [← hkey]
  exact List.mem_of_find?_eq_some hp

def Sorted (members : Members) : Prop := members.Pairwise fun p q => p.1 < q.1

theorem mem_insert {p : String × Json} {members : Members} (h : p ∈ insert key value members) :
    p = (key, value) ∨ p ∈ members := by
  induction members with
  | nil => exact .inl (List.mem_singleton.mp h)
  | cons q members ih =>
    rw [insert] at h
    split at h
    · exact List.mem_cons.mp h
    · split at h
      · exact (List.mem_cons.mp h).imp_right (List.mem_cons_of_mem _)
      · rcases List.mem_cons.mp h with rfl | h
        · exact .inr (List.mem_cons_self ..)
        · exact (ih h).imp_right (List.mem_cons_of_mem _)

theorem Sorted.insert {members : Members} (h : Sorted members) (key : String) (value : Json) :
    Sorted (Json.insert key value members) := by
  induction members with
  | nil => exact List.pairwise_singleton _ _
  | cons q members ih =>
    obtain ⟨hfirst, hrest⟩ := List.pairwise_cons.mp h
    rw [Json.insert]
    split
    · next hlt =>
      refine List.pairwise_cons.mpr ⟨?_, h⟩
      intro p hp
      rcases List.mem_cons.mp hp with rfl | hp
      · exact hlt
      · exact String.lt_trans hlt (hfirst p hp)
    · next hlt =>
      split
      · next heq => exact List.pairwise_cons.mpr ⟨heq ▸ hfirst, hrest⟩
      · next hne =>
        refine List.pairwise_cons.mpr ⟨?_, ih hrest⟩
        intro p hp
        rcases mem_insert hp with rfl | hp
        · exact Std.lt_of_le_of_ne (String.not_lt.mp hlt) (Ne.symm hne)
        · exact hfirst p hp

theorem sorted_ofMembers (pairs : List (String × Json)) : Sorted (ofMembers pairs) := by
  refine List.foldlRecOn (motive := Sorted) pairs _ List.Pairwise.nil ?_
  intro members hmembers p _
  exact hmembers.insert p.1 p.2

theorem Sorted.nodup {members : Members} (h : Sorted members) :
    (members.map Prod.fst).Nodup := by
  refine List.pairwise_map.mpr (List.Pairwise.imp ?_ h)
  intro p q hlt heq
  exact String.lt_irrefl _ (heq ▸ hlt)

end Members

end Json

end Espresso
