import Espresso.Error
import Espresso.Packed.Basic
import Espresso.Shot.Basic

/-!
Shots in a blob: four letters, a version and a count, and behind them records of fixed size, the
oldest first. A blob is read whole or refused.
-/

namespace Espresso.ShotBlob

def magic : Bytes := [0x42, 0x52, 0x53, 0x48]

def version : UInt8 := 1

def headerSize : Nat := 6

def recordSize : Nat := 36

def record (s : Shot) : Bytes :=
  Packed.word s.timestamp.toNat ++ Packed.single s.dose ++ Packed.single s.yield ++
    Packed.word s.duration.toNat ++ Packed.word s.preinfusion.toNat ++ Packed.single s.flow ++
    Packed.single s.peak ++ Packed.single s.temperature ++ [s.rating.getD 0, 0, 0, 0]

def shotOf (bytes : Bytes) : Shot :=
  let word (place : Nat) : Nat := Packed.wordOf (bytes.drop (4 * place))
  let rating := bytes.getD 32 0
  { timestamp := UInt32.ofNat (word 0)
    dose := Binary.ofBits (word 1)
    yield := Binary.ofBits (word 2)
    duration := UInt32.ofNat (word 3)
    preinfusion := UInt32.ofNat (word 4)
    flow := Binary.ofBits (word 5)
    peak := Binary.ofBits (word 6)
    temperature := Binary.ofBits (word 7)
    rating := if rating ≤ Shot.greatestRating then Shot.ratingOf rating else none }

def encode (shots : List Shot) : Bytes :=
  magic ++ version :: UInt8.ofNat shots.length :: shots.flatMap record

def records : Nat → Bytes → List Shot
  | 0, _ => []
  | count + 1, bytes =>
    shotOf (bytes.take recordSize) :: records count (bytes.drop recordSize)

def decode (limit : Nat) (bytes : Bytes) : Except BlobError (List Shot) :=
  if bytes.length < headerSize then .error .tooShort
  else if bytes.take 4 ≠ magic then .error .badMagic
  else
    let declared := bytes.getD 5 0
    let body := bytes.drop headerSize
    if bytes.getD 4 0 ≠ version then .error (.unsupportedVersion (bytes.getD 4 0))
    else if limit < declared.toNat then .error (.tooManyRecords declared)
    else if body.length < declared.toNat * recordSize then
      .error (.truncated declared (body.length / recordSize))
    else .ok (records declared.toNat body)

end Espresso.ShotBlob
