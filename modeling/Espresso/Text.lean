/-!
Text of bounded size. Sizes count the bytes of the UTF-8 form, and a cut falls between characters.
-/

namespace Espresso

abbrev Bytes := List UInt8

namespace Text

def toBytes (s : String) : Bytes := s.toByteArray.data.toList

def ofBytes? (bytes : Bytes) : Option String := String.fromUTF8? ⟨bytes.toArray⟩

theorem ofBytes?_toBytes (s : String) : ofBytes? (toBytes s) = some s := by
  have h : (⟨s.toByteArray.data.toList.toArray⟩ : ByteArray) = s.toByteArray := by simp
  rw [ofBytes?, toBytes, h, String.fromUTF8?, dif_pos s.isValidUTF8]
  rfl

def size : List Char → Nat
  | [] => 0
  | c :: cs => c.utf8Size + size cs

def clipChars (limit : Nat) : List Char → List Char
  | [] => []
  | c :: cs => if c.utf8Size ≤ limit then c :: clipChars (limit - c.utf8Size) cs else []

theorem size_clipChars_le (limit : Nat) (cs : List Char) : size (clipChars limit cs) ≤ limit := by
  induction cs generalizing limit with
  | nil => simp [clipChars, size]
  | cons c cs ih =>
    rw [clipChars]
    split
    · have := ih (limit - c.utf8Size)
      rw [size]
      omega
    · simp [size]

theorem utf8ByteSize_ofList (cs : List Char) : (String.ofList cs).utf8ByteSize = size cs := by
  induction cs with
  | nil => rfl
  | cons c cs ih =>
    rw [String.ofList_cons]
    simp [size, ih]

theorem length_toBytes (s : String) : (toBytes s).length = s.utf8ByteSize := by simp [toBytes]

def clip (limit : Nat) (s : String) : String := String.ofList (clipChars limit s.toList)

theorem utf8ByteSize_clip_le (limit : Nat) (s : String) :
    (clip limit s).utf8ByteSize ≤ limit := by
  rw [clip, utf8ByteSize_ofList]
  exact size_clipChars_le limit _

structure Bounded (limit : Nat) where
  text : String
  fits : text.utf8ByteSize ≤ limit
  deriving DecidableEq, Repr

def Bounded.ofText? (limit : Nat) (s : String) : Option (Bounded limit) :=
  if h : s.utf8ByteSize ≤ limit then some ⟨s, h⟩ else none

def isControl (c : Char) : Bool := c.val < 0x20 || (0x7F ≤ c.val && c.val ≤ 0x9F)

def hasControl (s : String) : Bool := s.toList.any isControl

def isHostLabel (s : String) : Bool :=
  let cs := s.toList
  cs ≠ [] && cs.head? ≠ some '-' && cs.getLast? ≠ some '-' &&
    cs.all fun c => c.isAlphanum || c = '-'

end Text

end Espresso
