import Espresso.Error
import Espresso.Text

/-!
The store: blobs under two-part names. A name is kept as one text, the space in front of the key,
and a space is erased by that beginning.
-/

namespace Espresso

structure Address where
  space : String
  key : String
  deriving DecidableEq, Repr

def spacePath (space : String) : List Char := space.toList ++ [':', ':']

def Address.path (a : Address) : List Char := spacePath a.space ++ a.key.toList

structure Store where
  available : Bool
  cells : List (List Char × Bytes)

namespace Store

def capacity : Nat := 4000

def empty : Store := ⟨true, []⟩

def unavailable : Store := ⟨false, []⟩

def lookup (s : Store) (path : List Char) : Option Bytes :=
  (s.cells.find? fun c => c.1 = path).map Prod.snd

def read (s : Store) (room : Nat) (a : Address) : Except StorageError Bytes :=
  if s.available then
    match s.lookup a.path with
    | none => .error .notFound
    | some data => if room < data.length then .error .io else .ok data
  else .error .unavailable

def write (s : Store) (a : Address) (data : Bytes) : Except StorageError Store :=
  if s.available then
    if capacity < data.length then .error .full
    else .ok { s with cells := (a.path, data) :: s.cells.filter fun c => c.1 ≠ a.path }
  else .error .unavailable

def delete (s : Store) (a : Address) : Except StorageError Store :=
  if s.available then .ok { s with cells := s.cells.filter fun c => c.1 ≠ a.path }
  else .error .unavailable

def contains (s : Store) (a : Address) : Bool := s.available && (s.lookup a.path).isSome

def erase (s : Store) (space : String) : Except StorageError Store :=
  if s.available then
    .ok { s with cells := s.cells.filter fun c => !(spacePath space).isPrefixOf c.1 }
  else .error .unavailable

end Store

end Espresso
