import Espresso.Decimal.Notation
import Espresso.Json.Basic

namespace Espresso.Json

def hexDigit (n : Nat) : Char :=
  if n < 10 then Char.ofNat ('0'.toNat + n) else Char.ofNat ('a'.toNat + n - 10)

def escapeChar (c : Char) : List Char :=
  match c with
  | '"' => ['\\', '"']
  | '\\' => ['\\', '\\']
  | '\x08' => ['\\', 'b']
  | '\x0c' => ['\\', 'f']
  | '\n' => ['\\', 'n']
  | '\r' => ['\\', 'r']
  | '\t' => ['\\', 't']
  | c =>
    if c.val < 0x20 then ['\\', 'u', '0', '0', hexDigit (c.toNat / 16), hexDigit (c.toNat % 16)]
    else [c]

def quote (s : String) : List Char := '"' :: (s.toList.flatMap escapeChar ++ ['"'])

def intText (n : Int) : List Char := Decimal.signText (n < 0) ++ Decimal.digitText n.natAbs

def floatText {F : BinaryFormat} (x : Binary F) : List Char :=
  if x.isFinite then x.text else "null".toList

def joinTexts : List (List Char) → List Char
  | [] => []
  | [t] => t
  | t :: ts => t ++ ',' :: joinTexts ts

def objectText (pairs : List (String × List Char)) : List Char :=
  '{' :: (joinTexts (pairs.map fun p => quote p.1 ++ ':' :: p.2) ++ ['}'])

mutual

def write : Json → List Char
  | null => "null".toList
  | bool true => "true".toList
  | bool false => "false".toList
  | int n => intText n
  | float x => floatText x
  | text s => quote s
  | array items => '[' :: (joinTexts (writeItems items) ++ [']'])
  | object members => objectText (writeMembers members)

def writeItems : List Json → List (List Char)
  | [] => []
  | v :: vs => write v :: writeItems vs

def writeMembers : List (String × Json) → List (String × List Char)
  | [] => []
  | (k, v) :: ms => (k, write v) :: writeMembers ms

end

def print (v : Json) : String := String.ofList v.write

end Espresso.Json
