import Espresso.Binary.Arithmetic

/-!
Documents. Whole numbers and floats are different values, and the members of an object stand in the
order of their keys, one member to a key.
-/

namespace Espresso

inductive Json where
  | null
  | bool (b : Bool)
  | int (n : Int)
  | float (x : Double)
  | text (s : String)
  | array (items : List Json)
  | object (members : List (String × Json))

namespace Json

instance : Inhabited Json := ⟨null⟩

abbrev Members := List (String × Json)

def insert (key : String) (value : Json) : Members → Members
  | [] => [(key, value)]
  | (k, v) :: rest =>
    if key < k then (key, value) :: (k, v) :: rest
    else if key = k then (key, value) :: rest
    else (k, v) :: insert key value rest

def ofMembers (pairs : List (String × Json)) : Members :=
  pairs.foldl (fun members p => insert p.1 p.2 members) []

def ofPairs (pairs : List (String × Json)) : Json := object (ofMembers pairs)

def find? (key : String) (members : Members) : Option Json :=
  (members.find? fun p => p.1 = key).map Prod.snd

def erase (key : String) (members : Members) : Members := members.filter fun p => p.1 ≠ key

def members? : Json → Option Members
  | object members => some members
  | _ => none

def get? (v : Json) (key : String) : Option Json := v.members?.bind (find? key)

def put (v : Json) (key : String) (value : Json) : Json :=
  match v with
  | object members => object (insert key value members)
  | v => v

def remove (v : Json) (key : String) : Json :=
  match v with
  | object members => object (erase key members)
  | v => v

def isObject (v : Json) : Bool := v.members?.isSome

def single (x : Single) : Json := if x.isFinite then float x.convert else null

def nat (n : Nat) : Json := int n

end Json

end Espresso
