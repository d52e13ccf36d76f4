import Espresso.Storage.Basic

/-!
Requests to a store, one after the other. A reader brings the buffer to read into.
-/

namespace Espresso

inductive Request where
  | read (a : Address) (buffer : Bytes)
  | write (a : Address) (data : Bytes)
  | delete (a : Address)
  | contains (a : Address)
  | erase (space : String)

inductive Answer where
  | read (length : Except StorageError Nat) (buffer : Bytes)
  | changed (outcome : Except StorageError Unit)
  | contains (present : Bool)

namespace Store

def readInto (s : Store) (a : Address) (buffer : Bytes) : Except StorageError Nat × Bytes :=
  match s.read buffer.length a with
  | .ok data => (.ok data.length, data ++ buffer.drop data.length)
  | .error e => (.error e, buffer)

def changed (s : Store) : Except StorageError Store → Answer × Store
  | .ok t => (.changed (.ok ()), t)
  | .error e => (.changed (.error e), s)

def serve (s : Store) : Request → Answer × Store
  | .read a buffer =>
    let (length, buffer) := s.readInto a buffer
    (.read length buffer, s)
  | .write a data => s.changed (s.write a data)
  | .delete a => s.changed (s.delete a)
  | .contains a => (.contains (s.contains a), s)
  | .erase space => s.changed (s.erase space)

def answers (s : Store) : List Request → List Answer
  | [] => []
  | r :: rs => (s.serve r).1 :: (s.serve r).2.answers rs

end Store

end Espresso
