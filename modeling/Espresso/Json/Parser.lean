import Espresso.Text
import Espresso.Json.Number

namespace Espresso.Json

def isBlank (c : Char) : Bool := c = ' ' || c = '\t' || c = '\n' || c = '\r'

def skipBlank (cs : List Char) : List Char := cs.dropWhile isBlank

def hexValue? (c : Char) : Option Nat :=
  if '0' ≤ c ∧ c ≤ '9' then some (c.toNat - '0'.toNat)
  else if 'a' ≤ c ∧ c ≤ 'f' then some (c.toNat - 'a'.toNat + 10)
  else if 'A' ≤ c ∧ c ≤ 'F' then some (c.toNat - 'A'.toNat + 10)
  else none

def hexUnit? (a b c d : Char) : Option Nat := do
  let a ← hexValue? a
  let b ← hexValue? b
  let c ← hexValue? c
  let d ← hexValue? d
  return ((a * 16 + b) * 16 + c) * 16 + d

def isHighHalf (unit : Nat) : Bool := 0xD800 ≤ unit && unit < 0xDC00

def isLowHalf (unit : Nat) : Bool := 0xDC00 ≤ unit && unit < 0xE000

def joinHalves (high low : Nat) : Char :=
  Char.ofNat (0x10000 + (high - 0xD800) * 0x400 + (low - 0xDC00))

def escape? : Char → Option Char
  | '"' => some '"'
  | '\\' => some '\\'
  | '/' => some '/'
  | 'b' => some '\x08'
  | 'f' => some '\x0c'
  | 'n' => some '\n'
  | 'r' => some '\r'
  | 't' => some '\t'
  | _ => none

def prepend (c : Char) (p : List Char × List Char) : List Char × List Char := (c :: p.1, p.2)

def quoted : List Char → Option (List Char × List Char)
  | [] => none
  | '"' :: cs => some ([], cs)
  | '\\' :: 'u' :: a :: b :: c :: d :: cs =>
    match hexUnit? a b c d with
    | none => none
    | some unit =>
      if isHighHalf unit then
        match cs with
        | '\\' :: 'u' :: a :: b :: c :: d :: cs =>
          match hexUnit? a b c d with
          | none => none
          | some low =>
            if isLowHalf low then
              (quoted cs).map (prepend (joinHalves unit low))
            else none
        | _ => none
      else if isLowHalf unit then none
      else (quoted cs).map (prepend (Char.ofNat unit))
  | '\\' :: c :: cs =>
    match escape? c with
    | none => none
    | some c => (quoted cs).map (prepend c)
  | c :: cs =>
    if c.val < 0x20 ∨ c = '\\' then none
    else (quoted cs).map (prepend c)

def sequence {α : Type} (close : Char) (item : List Char → Option (α × List Char)) :
    Nat → List Char → Option (List α × List Char)
  | 0, _ => none
  | fuel + 1, cs =>
    match item cs with
    | none => none
    | some (v, cs) =>
      match skipBlank cs with
      | [] => none
      | c :: cs =>
        if c = ',' then (sequence close item fuel cs).map fun (vs, rest) => (v :: vs, rest)
        else if c = close then some ([v], cs)
        else none

def enclosed {α : Type} (close : Char) (item : List Char → Option (α × List Char))
    (cs : List Char) : Option (List α × List Char) :=
  match skipBlank cs with
  | [] => none
  | c :: rest => if c = close then some ([], rest) else sequence close item cs.length (c :: rest)

def member (value : List Char → Option (Json × List Char)) (cs : List Char) :
    Option ((String × Json) × List Char) :=
  match skipBlank cs with
  | '"' :: cs =>
    match quoted cs with
    | none => none
    | some (key, cs) =>
      match skipBlank cs with
      | ':' :: cs => (value cs).map fun (v, rest) => ((String.ofList key, v), rest)
      | _ => none
  | _ => none

def scalar : List Char → Option (Json × List Char)
  | 'n' :: 'u' :: 'l' :: 'l' :: cs => some (null, cs)
  | 't' :: 'r' :: 'u' :: 'e' :: cs => some (bool true, cs)
  | 'f' :: 'a' :: 'l' :: 's' :: 'e' :: cs => some (bool false, cs)
  | '"' :: cs => (quoted cs).map fun (s, rest) => (text (String.ofList s), rest)
  | '-' :: cs => unsigned? true cs
  | cs => unsigned? false cs

def value : Nat → List Char → Option (Json × List Char)
  | 0, cs => scalar (skipBlank cs)
  | depth + 1, cs =>
    match skipBlank cs with
    | '[' :: cs => (enclosed ']' (value depth) cs).map fun (vs, rest) => (array vs, rest)
    | '{' :: cs =>
      (enclosed '}' (member (value depth)) cs).map fun (ms, rest) => (object (ofMembers ms), rest)
    | cs => scalar cs

def parse? (depth : Nat) (s : String) : Option Json :=
  match value depth s.toList with
  | some (v, rest) => if skipBlank rest = [] then some v else none
  | none => none

def storedDepth : Nat := 127

def ofBytes? (bytes : Bytes) : Option Json := (Text.ofBytes? bytes).bind (parse? storedDepth)

end Espresso.Json
