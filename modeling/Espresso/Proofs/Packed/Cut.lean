import Espresso.Proofs.Packed

namespace Espresso.Packed

/-- What may stand in place of a blob: less of it, or all of it under another version. -/
inductive Spoiled (blob : Bytes) : Bytes → Prop where
  | cut {bytes : Bytes} (front : bytes <+: blob) (short : bytes ≠ blob) : Spoiled blob bytes
  | version {v : UInt8} (other : blob.head? ≠ some v) : Spoiled blob (blob.set 0 v)

namespace Reader

variable {α β : Type}

def Stable (reader : Reader α) : Prop :=
  ∀ bs more a rest, reader bs = some (a, rest) → reader (bs ++ more) = some (a, rest ++ more)

theorem stable_pure (a : α) : (pure a : Reader α).Stable := by
  intro bs more b rest h
  obtain ⟨rfl, rfl⟩ := Prod.mk.inj (Option.some.inj h)
  rfl

theorem stable_failure : (failure : Reader α).Stable := nofun

theorem Stable.bind {reader : Reader α} {next : α → Reader β} (h : reader.Stable)
    (hn : ∀ a, (next a).Stable) : (reader >>= next).Stable := by
  intro bs more b rest hb
  obtain ⟨a, left, ha, hb⟩ := bind_eq_some hb
  show (reader (bs ++ more)).bind _ = _
  rw [h bs more a left ha]
  exact hn a left more b rest hb

theorem Stable.ite {p : Prop} [Decidable p] {yes no : Reader α} (hy : yes.Stable)
    (hn : no.Stable) : (if p then yes else no).Stable := by
  split
  · exact hy
  · exact hn

theorem stable_byte : byte.Stable := by
  intro bs more a rest h
  cases bs with
  | nil => cases h
  | cons b bs =>
    obtain ⟨rfl, rfl⟩ := Prod.mk.inj (Option.some.inj h)
    rfl

theorem stable_take (n : Nat) : (take n).Stable := by
  intro bs more a rest h
  by_cases hn : bs.length < n
  · rw [take, if_pos hn] at h
    cases h
  · rw [take, if_neg hn] at h
    obtain ⟨rfl, rfl⟩ := Prod.mk.inj (Option.some.inj h)
    have hle : n ≤ bs.length := Nat.le_of_not_lt hn
    have hmore : ¬(bs ++ more).length < n := by
      rw [List.length_append]
      omega
    rw [take, if_neg hmore, List.take_append_of_le_length hle, List.drop_append_of_le_length hle]

theorem stable_groups (room : Nat) : (groups room).Stable := by
  induction room with
  | zero => exact stable_failure
  | succ room ih =>
    apply stable_byte.bind
    intro b
    apply Stable.ite (stable_pure _)
    exact ih.bind fun rest => stable_pure _

theorem stable_varint (bits : Nat) : (varint bits).Stable := by
  apply (stable_groups _).bind
  intro n
  exact Stable.ite (stable_pure n) stable_failure

theorem stable_uint16 : uint16.Stable := (stable_varint 16).bind fun _ => stable_pure _

theorem stable_uint32 : uint32.Stable := (stable_varint 32).bind fun _ => stable_pure _

theorem stable_bool : bool.Stable := by
  apply stable_byte.bind
  intro b
  exact Stable.ite (stable_pure _) (Stable.ite (stable_pure _) stable_failure)

theorem stable_single : single.Stable := (stable_take 4).bind fun _ => stable_pure _

theorem stable_text (limit : Nat) : (text limit).Stable := by
  apply (stable_varint 64).bind
  intro n
  apply (stable_take n).bind
  intro bytes
  split
  · exact stable_pure _
  · exact stable_failure

theorem stable_choice [Named α] : (choice : Reader α).Stable := by
  apply (stable_varint 32).bind
  intro n
  split
  · exact stable_pure _
  · exact stable_failure

theorem Stable.times {item : Reader α} (h : item.Stable) (n : Nat) : (times item n).Stable := by
  induction n with
  | zero => exact stable_pure []
  | succ n ih => exact h.bind fun _ => ih.bind fun _ => stable_pure _

theorem Stable.list {item : Reader α} (h : item.Stable) (limit : Nat) :
    (list limit item).Stable := by
  apply (stable_varint 64).bind
  intro n
  exact Stable.ite (h.times n) stable_failure

variable {reader : Reader α} {bytes bs : Bytes} {a : α}

theorem Takes.run?_of_cut (h : reader.Takes bytes a) (hs : reader.Stable) (front : bs <+: bytes)
    (short : bs ≠ bytes) : reader.run? bs = none := by
  obtain ⟨more, rfl⟩ := front
  cases hr : reader bs with
  | none =>
    rw [Reader.run?, hr]
    rfl
  | some p =>
    -- If it could read the front, it would leave the end of the whole over.
    obtain ⟨b, rest⟩ := p
    have hwhole : reader (bs ++ more) = some (a, []) := by
      rw [← List.append_nil (bs ++ more)]
      exact h []
    rw [hs bs more b rest hr] at hwhole
    obtain ⟨-, hrest⟩ := Prod.mk.inj (Option.some.inj hwhole)
    obtain ⟨-, rfl⟩ := List.append_eq_nil_iff.mp hrest
    exact absurd (List.append_nil bs).symm short

theorem byte_bind_cons (next : UInt8 → Reader β) (b : UInt8) (bs : Bytes) :
    (byte >>= next) (b :: bs) = next b bs := rfl

theorem bind_eq_none {next : α → Reader β} (h : ∀ a rest, next a rest = none) (bs : Bytes) :
    (reader >>= next) bs = none := by
  show (reader bs).bind _ = none
  cases reader bs with
  | none => rfl
  | some p => exact h p.1 p.2

theorem Takes.run?_of_spoiled {version : UInt8} {body : Bytes}
    (h : reader.Takes (version :: body) a) (hs : reader.Stable)
    (hversion : ∀ v, v ≠ version → ∀ rest, reader (v :: rest) = none)
    (spoiled : Spoiled (version :: body) bs) : reader.run? bs = none := by
  cases spoiled with
  | cut front short => exact h.run?_of_cut hs front short
  | @version v other =>
    have hv : v ≠ version := fun hv => other (congrArg some hv.symm)
    show (reader (v :: body)).map Prod.fst = none
    rw [hversion v hv]
    rfl

end Reader

end Espresso.Packed
