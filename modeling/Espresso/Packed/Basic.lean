import Espresso.Binary.Basic
import Espresso.Named
import Espresso.Text

/-!
Packed bytes. Numbers are written in groups of seven bits, lowest first, floats in four bytes,
texts behind their length. Readers take bytes off the front and leave the rest.
-/

namespace Espresso.Packed

def word (n : Nat) : Bytes :=
  [UInt8.ofNat n, UInt8.ofNat (n / 256), UInt8.ofNat (n / 65536), UInt8.ofNat (n / 16777216)]

def wordOf : Bytes → Nat
  | a :: b :: c :: d :: _ => a.toNat + b.toNat * 256 + c.toNat * 65536 + d.toNat * 16777216
  | _ => 0

def varint (n : Nat) : Bytes :=
  if n < 128 then [UInt8.ofNat n] else UInt8.ofNat (n % 128 + 128) :: varint (n / 128)
termination_by n
decreasing_by omega

def bool (b : Bool) : Bytes := [if b then 1 else 0]

def single (x : Single) : Bytes := word x.toBits

def text (s : String) : Bytes := varint (Text.toBytes s).length ++ Text.toBytes s

def choice {α : Type} [Named α] [DecidableEq α] (a : α) : Bytes :=
  varint ((Named.all : List α).idxOf a)

abbrev Reader := StateT Bytes Option

namespace Reader

def byte : Reader UInt8 := fun
  | [] => none
  | b :: bs => some (b, bs)

def take (n : Nat) : Reader Bytes := fun bs =>
  if bs.length < n then none else some (bs.take n, bs.drop n)

def groups : Nat → Reader Nat
  | 0 => failure
  | room + 1 => do
    let b ← byte
    if b < 128 then return b.toNat
    else
      let rest ← groups room
      return b.toNat - 128 + 128 * rest

/-- A number of at most `bits` bits, in no more groups than that takes. -/
def varint (bits : Nat) : Reader Nat := do
  let n ← groups ((bits + 6) / 7)
  if n < 2 ^ bits then return n else failure

def uint16 : Reader UInt16 := return UInt16.ofNat (← varint 16)

def uint32 : Reader UInt32 := return UInt32.ofNat (← varint 32)

def bool : Reader Bool := do
  let b ← byte
  if b = 0 then return false else if b = 1 then return true else failure

def single : Reader Single := return Binary.ofBits (wordOf (← take 4))

def text (limit : Nat) : Reader (Text.Bounded limit) := do
  let n ← varint 64
  let bytes ← take n
  match (Text.ofBytes? bytes).bind (Text.Bounded.ofText? limit) with
  | some s => return s
  | none => failure

def choice {α : Type} [Named α] : Reader α := do
  let n ← varint 32
  match (Named.all : List α)[n]? with
  | some a => return a
  | none => failure

def times {α : Type} (item : Reader α) : Nat → Reader (List α)
  | 0 => return []
  | n + 1 => do
    let a ← item
    let as ← times item n
    return a :: as

def list {α : Type} (limit : Nat) (item : Reader α) : Reader (List α) := do
  let n ← varint 64
  if n ≤ limit then times item n else failure

def run? {α : Type} (reader : Reader α) (bytes : Bytes) : Option α := (reader bytes).map Prod.fst

end Reader

def list {α : Type} (item : α → Bytes) (as : List α) : Bytes := varint as.length ++ as.flatMap item

end Espresso.Packed
