import Espresso.Storage.Basic

namespace Espresso

inductive Access where
  | read (a : Address)
  | write (a : Address) (data : Bytes)
  | delete (a : Address)
  | erase (space : String)

inductive Operation where
  | read
  | write
  | delete
  | erase
  deriving DecidableEq, Repr

def Access.operation : Access → Operation
  | read _ => .read
  | write _ _ => .write
  | delete _ => .delete
  | erase _ => .erase

def Address.display (a : Address) : String := a.space ++ "/" ++ a.key

def Access.names : Access → List String
  | read a => [a.space, a.display]
  | write a _ => [a.space, a.display]
  | delete a => [a.space, a.display]
  | erase space => [space]

structure Fault where
  operation : Operation
  target : String
  error : StorageError
  deriving DecidableEq, Repr

def Fault.hits (f : Fault) (access : Access) : Bool :=
  f.operation = access.operation && (f.target = "*" || access.names.contains f.target)

def Fault.refusal (faults : List Fault) (access : Access) : Option StorageError :=
  (faults.find? fun f => f.hits access).map Fault.error

structure Attempt where
  access : Access
  failure : Option StorageError

structure Medium where
  store : Store
  /-- The error with which the medium meets an operation before it reaches the store. -/
  refuses : Access → Option StorageError
  attempts : List Attempt

namespace Medium

def reliable (store : Store) : Medium := ⟨store, fun _ => none, []⟩

def read (m : Medium) (a : Address) : Except StorageError Bytes :=
  match m.refuses (.read a) with
  | some e => .error e
  | none => m.store.read Store.capacity a

def attempt (m : Medium) (access : Access) (change : Store → Except StorageError Store) :
    Except StorageError Unit × Medium :=
  match (m.refuses access).elim (change m.store) .error with
  | .ok store => (.ok (), { m with store, attempts := m.attempts ++ [⟨access, none⟩] })
  | .error e => (.error e, { m with attempts := m.attempts ++ [⟨access, some e⟩] })

def write (m : Medium) (a : Address) (data : Bytes) : Except StorageError Unit × Medium :=
  m.attempt (.write a data) fun s => s.write a data

def delete (m : Medium) (a : Address) : Except StorageError Unit × Medium :=
  m.attempt (.delete a) fun s => s.delete a

def erase (m : Medium) (space : String) : Except StorageError Unit × Medium :=
  m.attempt (.erase space) fun s => s.erase space

end Medium

end Espresso
