import Espresso.Ring
import Espresso.Shot.Blob
import Espresso.Storage.Medium

namespace Espresso

def ShotHistory.capacity : Nat := 50

structure ShotHistory where
  ring : Ring Shot ShotHistory.capacity

namespace ShotHistory

def empty : ShotHistory := ⟨.empty (by decide)⟩

instance : Inhabited ShotHistory := ⟨empty⟩

def toList (h : ShotHistory) : List Shot := h.ring.toList

def size (h : ShotHistory) : Nat := h.ring.size

def get? (h : ShotHistory) (index : Nat) : Option Shot := h.ring.get? index

def newestFirst (h : ShotHistory) : List Shot := (List.range h.size).filterMap h.get?

def oldestFirst (h : ShotHistory) : List Shot := (List.range h.size).reverse.filterMap h.get?

def add (h : ShotHistory) (s : Shot) : ShotHistory := ⟨h.ring.push s⟩

def clear (h : ShotHistory) : ShotHistory := ⟨h.ring.clear⟩

def rate (h : ShotHistory) (index : Nat) (rating : UInt8) : Except Error ShotHistory :=
  if Shot.greatestRating < rating then .error (.invalid .rating)
  else if h.size ≤ index then .error (.shotNotFound index)
  else .ok ⟨h.ring.modify index fun s => { s with rating := Shot.ratingOf rating }⟩

def ofShots (shots : List Shot) : ShotHistory := shots.foldl add empty

def toBytes (h : ShotHistory) : Bytes := ShotBlob.encode h.toList.reverse

def ofBytes (bytes : Bytes) : Except BlobError ShotHistory :=
  (ShotBlob.decode capacity bytes).map ofShots

def space : String := "history"

def address : Address := ⟨space, "shots"⟩

def load (m : Medium) : ShotHistory :=
  match m.read address with
  | .ok bytes => (ofBytes bytes).toOption.getD empty
  | .error _ => empty

def save (h : ShotHistory) (m : Medium) : Except StorageError Unit × Medium :=
  if h.size = 0 then m.delete address else m.write address h.toBytes

end ShotHistory

end Espresso
