import Espresso.Notice.Bus

/-!
The subscriptions of a bus, and the register that a bus stands in for: there every sink has a number
of its own, and the numbers do not run out.
-/

namespace Espresso

inductive BusRequest (σ ε : Type) where
  | subscribe (sink : σ)
  | unsubscribe (number : Nat)
  | publish (e : ε)

inductive BusReply (σ ε : Type) where
  | granted (yes : Bool)
  | told (deliveries : List (σ × ε))

structure Subscriptions (σ : Type) where
  bus : Bus σ
  given : List (UInt8 × σ)

structure Register (σ : Type) where
  live : List (Nat × σ)
  next : Nat

namespace Subscriptions

variable {σ ε : Type}

def start : Subscriptions σ := ⟨.empty, []⟩

def serve (d : Subscriptions σ) : BusRequest σ ε → BusReply σ ε × Subscriptions σ
  | .subscribe sink =>
    match d.bus.subscribe sink with
    | some (handle, bus) => (.granted true, ⟨bus, d.given ++ [(handle, sink)]⟩)
    | none => (.granted false, d)
  | .unsubscribe number =>
    match d.given[number]?.bind fun p => d.bus.unsubscribe p.1 with
    | some bus => (.granted true, { d with bus })
    | none => (.granted false, d)
  | .publish e => (.told (d.bus.deliver [e]), d)

def serveAll (d : Subscriptions σ) (requests : List (BusRequest σ ε)) : Subscriptions σ :=
  requests.foldl (fun d q => (d.serve q).2) d

def replies (d : Subscriptions σ) : List (BusRequest σ ε) → List (BusReply σ ε)
  | [] => []
  | q :: requests => (d.serve q).1 :: (d.serve q).2.replies requests

end Subscriptions

namespace Register

variable {σ ε : Type}

def start : Register σ := ⟨[], 0⟩

def serve (r : Register σ) : BusRequest σ ε → BusReply σ ε × Register σ
  | .subscribe sink =>
    if r.live.length < 4 then (.granted true, ⟨r.live ++ [(r.next, sink)], r.next + 1⟩)
    else (.granted false, r)
  | .unsubscribe number =>
    (.granted (r.live.any fun p => p.1 = number),
      { r with live := r.live.filter fun p => p.1 ≠ number })
  | .publish e => (.told (r.live.map fun p => (p.2, e)), r)

def serveAll (r : Register σ) (requests : List (BusRequest σ ε)) : Register σ :=
  requests.foldl (fun r q => (r.serve q).2) r

def replies (r : Register σ) : List (BusRequest σ ε) → List (BusReply σ ε)
  | [] => []
  | q :: requests => (r.serve q).1 :: (r.serve q).2.replies requests

/-- Whether a request comes before 256 more subscriptions have been taken: that of a handle which is
handed back, and those of all sinks that are live when another one is added. -/
def Timely (r : Register σ) : BusRequest σ ε → Prop
  | .subscribe _ => ∀ p ∈ r.live, r.next < p.1 + 256
  | .unsubscribe number => r.next ≤ number + 256
  | .publish _ => True

def TimelyAll (r : Register σ) : List (BusRequest σ ε) → Prop
  | [] => True
  | q :: requests => r.Timely q ∧ (r.serve q).2.TimelyAll requests

instance (r : Register σ) : (q : BusRequest σ ε) → Decidable (r.Timely q)
  | .subscribe _ => inferInstanceAs (Decidable (∀ p ∈ r.live, r.next < p.1 + 256))
  | .unsubscribe number => inferInstanceAs (Decidable (r.next ≤ number + 256))
  | .publish _ => .isTrue trivial

instance decidableTimelyAll : (r : Register σ) → (requests : List (BusRequest σ ε)) →
    Decidable (r.TimelyAll requests)
  | _, [] => .isTrue trivial
  | r, q :: requests =>
    have := decidableTimelyAll (r.serve q).2 requests
    inferInstanceAs (Decidable (r.Timely q ∧ (r.serve q).2.TimelyAll requests))

end Register

end Espresso
