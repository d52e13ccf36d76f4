import Espresso.Decimal.Notation
import Espresso.Json.Printer
import Espresso.Json.Reader
import Espresso.Text

namespace Espresso

inductive Scalar where
  | flag (b : Bool)
  | whole (n : Int)
  | single (x : Single)
  | text (s : String)

namespace Scalar

def same : Scalar → Scalar → Bool
  | flag a, flag b => a = b
  | whole a, whole b => a = b
  | single a, single b => a.same b
  | text a, text b => a = b
  | _, _ => false

def toJson : Scalar → Json
  | flag b => .bool b
  | whole n => .int n
  | single x => .single x
  | text s => .text s

/-- The text that is stored. A number of 32 bits is stored with the digits that it needs. -/
def stored : Scalar → List Char
  | single x => Json.floatText x
  | s => s.toJson.write

end Scalar

inductive Kind : Type → Type 1 where
  | flag : Kind Bool
  | whole (lo hi : Int) : Kind Int
  | single (lo hi : Single) : Kind Single
  | text (limit : Nat) : Kind String
  /-- A text that is a host label before it is cut to `limit` bytes. -/
  | label (limit : Nat) : Kind String
  | choice {α : Type} [Named α] : Kind α
  /-- A flag that follows from other settings and is taken from no document. -/
  | derived : Kind Bool

namespace Kind

def text? (limit : Nat) (s : String) : Option String :=
  if Text.hasControl s then none else some (Text.clip limit s)

def accept {α : Type} : Kind α → Json → Option α
  | flag, v => v.bool?
  | whole lo hi, v => v.int? lo hi
  | single lo hi, v => v.single?.filter (Binary.within lo hi)
  | text limit, v => v.text?.bind (text? limit)
  | label limit, v => (v.text?.filter Text.isHostLabel).bind (text? limit)
  | choice, v => v.named?
  | derived, _ => none

def scalar {α : Type} : Kind α → α → Scalar
  | flag, b => .flag b
  | whole _ _, n => .whole n
  | single _ _, x => .single x
  | text _, s => .text s
  | label _, s => .text s
  | choice, a => .text (Named.name a)
  | derived, b => .flag b

end Kind

end Espresso
