namespace Espresso

structure Bus (σ : Type) where
  sinks : List (UInt8 × σ)
  next : UInt8

namespace Bus

variable {σ ε : Type}

def capacity : Nat := 4

def empty : Bus σ := ⟨[], 0⟩

def size (b : Bus σ) : Nat := b.sinks.length

def subscribe (b : Bus σ) (sink : σ) : Option (UInt8 × Bus σ) :=
  if b.size < capacity then some (b.next, ⟨b.sinks ++ [(b.next, sink)], b.next + 1⟩) else none

def unsubscribe (b : Bus σ) (handle : UInt8) : Option (Bus σ) :=
  if b.sinks.any fun p => p.1 = handle then
    some { b with sinks := b.sinks.eraseP fun p => p.1 = handle }
  else none

def deliver (b : Bus σ) (events : List ε) : List (σ × ε) :=
  events.flatMap fun e => b.sinks.map fun p => (p.2, e)

end Bus

end Espresso
