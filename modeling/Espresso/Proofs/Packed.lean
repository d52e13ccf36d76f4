import Mathlib.Algebra.Group.Nat.Defs
import Espresso.Packed.Basic

namespace Espresso

theorem Packed.wordOf_word {n : Nat} (hn : n < 4294967296) (rest : Bytes) :
    wordOf (word n ++ rest) = n := by
  simp only [word, wordOf, List.cons_append, UInt8.toNat_ofNat']
  omega

theorem Binary.toBits_lt_of_single (x : Single) : x.toBits < 4294967296 := by
  have hbits : 2 ^ (BinaryFormat.single.magnitudeBits + 1) = 4294967296 := by decide
  exact hbits ▸ x.toBits_lt

theorem Packed.length_varint_le (room : Nat) {n : Nat} (hn : n < 128 ^ (room + 1)) :
    (varint n).length ≤ room + 1 := by
  induction room generalizing n with
  | zero =>
    have hlt : n < 128 := hn
    rw [varint, if_pos hlt]
    exact Nat.le_refl _
  | succ room ih =>
    rw [varint]
    split
    · exact Nat.succ_le_succ (Nat.zero_le _)
    · have hq : n / 128 < 128 ^ (room + 1) :=
        Nat.div_lt_of_lt_mul (by rwa [Nat.mul_comm, ← Nat.pow_succ])
      exact Nat.succ_le_succ (ih hq)

namespace Packed.Reader

variable {α β : Type}

theorem bind_eq_some {reader : Reader α} {next : α → Reader β} {bs rest : Bytes} {b : β}
    (h : (reader >>= next) bs = some (b, rest)) :
    ∃ a left, reader bs = some (a, left) ∧ next a left = some (b, rest) := by
  obtain ⟨⟨a, left⟩, ha, hb⟩ := Option.bind_eq_some_iff.mp h
  exact ⟨a, left, ha, hb⟩

theorem length_times {item : Reader α} {n : Nat} {bs rest : Bytes} {as : List α}
    (h : times item n bs = some (as, rest)) : as.length = n := by
  induction n generalizing bs rest as with
  | zero =>
    obtain ⟨rfl, -⟩ := Prod.mk.inj (Option.some.inj h)
    rfl
  | succ n ih =>
    obtain ⟨a, left, -, h⟩ := bind_eq_some h
    obtain ⟨as', left', hs, h⟩ := bind_eq_some h
    obtain ⟨rfl, -⟩ := Prod.mk.inj (Option.some.inj h)
    rw [List.length_cons, ih hs]

theorem length_list_le {item : Reader α} {limit : Nat} {bs rest : Bytes} {as : List α}
    (h : list limit item bs = some (as, rest)) : as.length ≤ limit := by
  obtain ⟨n, left, -, h⟩ := bind_eq_some h
  by_cases hn : n ≤ limit
  · rw [if_pos hn] at h
    rwa [length_times h]
  · rw [if_neg hn] at h
    cases h

def Takes (reader : Reader α) (bytes : Bytes) (a : α) : Prop :=
  ∀ rest, reader (bytes ++ rest) = some (a, rest)

theorem Takes.run? {reader : Reader α} {bytes : Bytes} {a : α} (h : reader.Takes bytes a) :
    reader.run? bytes = some a := by
  have h := h []
  rw [List.append_nil] at h
  rw [Reader.run?, h]
  rfl

theorem takes_pure (a : α) : (pure a : Reader α).Takes [] a := fun _ => rfl

theorem Takes.bind {reader : Reader α} {next : α → Reader β} {first second : Bytes} {a : α} {b : β}
    (h : reader.Takes first a) (hn : (next a).Takes second b) :
    (reader >>= next).Takes (first ++ second) b := by
  intro rest
  show (reader (first ++ second ++ rest)).bind _ = _
  rw [List.append_assoc, h]
  exact hn rest

theorem Takes.bind_pure {reader : Reader α} {next : α → Reader β} {bytes : Bytes} {a : α} {b : β}
    (h : reader.Takes bytes a) (hn : next a = pure b) : (reader >>= next).Takes bytes b := by
  rw [← List.append_nil bytes]
  apply h.bind
  rw [hn]
  exact takes_pure b

theorem takes_byte (b : UInt8) : byte.Takes [b] b := fun _ => rfl

theorem takes_take (bytes : Bytes) : (take bytes.length).Takes bytes bytes := by
  intro rest
  simp [take]

theorem groups_cons (room : Nat) (b : UInt8) (bs : Bytes) :
    groups (room + 1) (b :: bs) =
      if b.toNat < 128 then some (b.toNat, bs)
      else (groups room bs).map fun p => (b.toNat - 128 + 128 * p.1, p.2) := by
  have hb : b < 128 ↔ b.toNat < 128 := UInt8.lt_iff_toNat_lt
  show (if b < 128 then pure b.toNat else groups room >>= fun rest =>
    pure (b.toNat - 128 + 128 * rest) : Reader Nat) bs = _
  simp only [hb]
  split
  · rfl
  · show (groups room bs).bind _ = _
    cases groups room bs <;> rfl

theorem takes_groups {room n : Nat} (hn : n < 128 ^ (room + 1)) :
    (groups (room + 1)).Takes (Packed.varint n) n := by
  have small (room n : Nat) (hlt : n < 128) : (groups (room + 1)).Takes (Packed.varint n) n := by
    intro rest
    have hb : (UInt8.ofNat n).toNat = n := by
      rw [UInt8.toNat_ofNat']
      omega
    rw [Packed.varint, if_pos hlt, List.singleton_append, groups_cons, hb, if_pos hlt]
  induction room generalizing n with
  | zero => exact small 0 n hn
  | succ room ih =>
    by_cases hlt : n < 128
    · exact small _ n hlt
    · intro rest
      have hb : (UInt8.ofNat (n % 128 + 128)).toNat = n % 128 + 128 := by
        rw [UInt8.toNat_ofNat']
        omega
      have hq : n / 128 < 128 ^ (room + 1) :=
        Nat.div_lt_of_lt_mul (by rwa [Nat.mul_comm, ← Nat.pow_succ])
      rw [Packed.varint, if_neg hlt, List.cons_append, groups_cons, hb, if_neg (by omega), ih hq]
      simp only [Option.map_some, Option.some.injEq, Prod.mk.injEq, and_true]
      omega

theorem takes_varint {bits n : Nat} (hn : n < 2 ^ bits) (hb : 0 < bits) :
    (varint bits).Takes (Packed.varint n) n := by
  obtain ⟨room, hroom⟩ : ∃ room, (bits + 6) / 7 = room + 1 :=
    Nat.exists_eq_add_one_of_ne_zero (by omega)
  have hlt : n < 128 ^ (room + 1) := by
    apply Nat.lt_of_lt_of_le hn
    rw [show 128 = 2 ^ 7 from rfl, ← Nat.pow_mul]
    exact Nat.pow_le_pow_right (by decide) (by omega)
  intro rest
  show ((groups ((bits + 6) / 7) (Packed.varint n ++ rest)).bind _) = _
  rw [hroom, takes_groups hlt]
  show (if n < 2 ^ bits then pure n else failure : Reader Nat) rest = _
  rw [if_pos hn]
  rfl

theorem takes_bool (b : Bool) : bool.Takes (Packed.bool b) b := by
  intro rest
  cases b <;> rfl

theorem takes_uint16 (n : UInt16) : uint16.Takes (Packed.varint n.toNat) n := by
  apply (takes_varint n.toNat_lt (by decide)).bind_pure
  rw [UInt16.ofNat_toNat]

theorem takes_uint32 (n : UInt32) : uint32.Takes (Packed.varint n.toNat) n := by
  apply (takes_varint n.toNat_lt (by decide)).bind_pure
  rw [UInt32.ofNat_toNat]

theorem takes_single (x : Single) : single.Takes (Packed.single x) x := by
  apply (takes_take (Packed.single x)).bind_pure
  rw [← List.append_nil (Packed.single x), Packed.single, wordOf_word x.toBits_lt_of_single,
    Binary.ofBits_toBits]

theorem takes_text {limit : Nat} (s : Text.Bounded limit) (hl : limit < 2 ^ 64) :
    (text limit).Takes (Packed.text s.text) s := by
  have hlen : (Text.toBytes s.text).length < 2 ^ 64 := by
    rw [Text.length_toBytes]
    exact Nat.lt_of_le_of_lt s.fits hl
  have hread : (Text.ofBytes? (Text.toBytes s.text)).bind (Text.Bounded.ofText? limit) = some s := by
    rw [Text.ofBytes?_toBytes]
    exact dif_pos s.fits
  apply (takes_varint hlen (by decide)).bind
  apply (takes_take _).bind_pure
  rw [hread]

theorem takes_choice [Named α] [DecidableEq α] {a : α} (ha : a ∈ (Named.all : List α))
    (hl : (Named.all : List α).length < 2 ^ 32) : (choice : Reader α).Takes (Packed.choice a) a := by
  have hlt := List.idxOf_lt_length_of_mem ha
  apply (takes_varint (Nat.lt_trans hlt hl) (by decide)).bind_pure
  rw [List.getElem?_eq_getElem hlt, List.getElem_idxOf]

theorem takes_times {item : Reader α} {pack : α → Bytes} {as : List α}
    (h : ∀ a ∈ as, item.Takes (pack a) a) : (times item as.length).Takes (as.flatMap pack) as := by
  induction as with
  | nil => exact takes_pure []
  | cons a as ih =>
    rw [List.flatMap_cons]
    apply (h a (List.mem_cons_self ..)).bind
    exact (ih fun b hb => h b (List.mem_cons_of_mem _ hb)).bind_pure rfl

theorem takes_list {limit : Nat} {item : Reader α} {pack : α → Bytes} {as : List α}
    (h : ∀ a ∈ as, item.Takes (pack a) a) (hl : as.length ≤ limit) (hlimit : limit < 2 ^ 64) :
    (list limit item).Takes (Packed.list pack as) as := by
  apply (takes_varint (Nat.lt_of_le_of_lt hl hlimit) (by decide)).bind
  rw [if_pos hl]
  exact takes_times h

end Packed.Reader

end Espresso
