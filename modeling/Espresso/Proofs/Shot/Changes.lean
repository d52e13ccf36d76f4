import Espresso.Proofs.Shot
import Espresso.Shot.Change

namespace Espresso.ShotHistory

variable {h : ShotHistory} {cs : List Change}

theorem get?_eq_getElem? (h : ShotHistory) (index : Nat) : h.get? index = h.toList[index]? :=
  (h.ring.getElem?_toList index).symm

theorem Sound.change (hh : h.Sound) {c : Change} (hc : ∀ s, c = .add s → s.Sound) :
    (h.change c).Sound := by
  cases c with
  | add s => exact hh.add (hc s rfl)
  | rate index rating =>
    show ((h.rate index rating).toOption.getD h).Sound
    cases hr : h.rate index rating with
    | error e => exact hh
    | ok h' => exact hh.rate hr
  | clear => exact h.sound_clear
  | decode bytes =>
    have hbytes := sound_ofBytes bytes
    show ((ofBytes bytes).toOption.getD h).Sound
    cases hd : ofBytes bytes with
    | error e => exact hh
    | ok h' => rwa [hd] at hbytes
  | load m => exact sound_load m

theorem Sound.changes (hh : h.Sound) (hcs : ∀ s, .add s ∈ cs → s.Sound) : (h.changes cs).Sound := by
  refine List.foldlRecOn (motive := Sound) cs _ hh ?_
  intro h hh c hc
  refine hh.change ?_
  rintro s rfl
  exact hcs s hc

theorem ofBytes_toBytes_of_changes (cs : List Change) :
    let h := empty.changes cs
    ((∀ s, .add s ∈ cs → s.Sound) → h.Sound) ∧
    (h.Sound → ∃ h', ofBytes h.toBytes = .ok h' ∧ h'.size = h.size ∧ h'.toList = h.toList ∧
      (∀ index, h'.get? index = h.get? index) ∧ h'.toBytes = h.toBytes) := by
  intro h
  refine ⟨sound_empty.changes, ?_⟩
  intro hh
  obtain ⟨h', hread, hlist⟩ := ofBytes_toBytes hh
  refine ⟨h', hread, ?_, hlist, ?_, ?_⟩
  · rw [← length_toList, hlist, length_toList]
  · intro index
    rw [get?_eq_getElem?, hlist, get?_eq_getElem?]
  · rw [toBytes, hlist, toBytes]

theorem ofBytes_toBytes_of_full_ring :
    let shot (i : Nat) : Shot :=
      { (default : Shot) with timestamp := UInt32.ofNat i, dose := Binary.ofBits 0x7FC00001 }
    let cs := (List.range 60).map (fun i => Change.add (shot i)) ++ [.rate 49 5]
    let h := empty.changes cs
    h.Sound ∧ h.size = 50 ∧ h.get? 49 = some { shot 10 with rating := some 5 } ∧
      ∃ h', ofBytes h.toBytes = .ok h' ∧ h'.toList = h.toList ∧ h'.toBytes = h.toBytes := by
  intro shot cs h
  obtain ⟨hsound, hread⟩ := ofBytes_toBytes_of_changes cs
  have hh : h.Sound := by
    refine hsound ?_
    intro s hs n hn
    obtain ⟨i, -, rfl⟩ : ∃ i, i < 60 ∧ shot i = s := by simpa [cs] using hs
    cases hn
  obtain ⟨h', hbytes, -, hlist, -, hsame⟩ := hread hh
  exact ⟨hh, by decide +kernel, by decide +kernel, h', hbytes, hlist, hsame⟩

end Espresso.ShotHistory
