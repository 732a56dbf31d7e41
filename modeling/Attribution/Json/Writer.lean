import Attribution.Json.Value
import Attribution.Text.Integer
import Attribution.Text.Utf8

namespace Attribution.Json

def unitText (unit : Nat) : List Char := '\\' :: 'u' :: Text.hexText 4 unit

/-- One character of a string. Characters past the first plane are two escapes. -/
def writeChar (c : Char) : List Char :=
  let n := c.toNat
  match c with
  | '"' => ['\\', '"']
  | '\\' => ['\\', '\\']
  | '\n' => ['\\', 'n']
  | '\r' => ['\\', 'r']
  | '\t' => ['\\', 't']
  | '\x08' => ['\\', 'b']
  | '\x0c' => ['\\', 'f']
  | _ =>
    if 0x20 ≤ n ∧ n < 0x7f then [c]
    else if n < 0x10000 then unitText n
    else
      unitText (0xd800 + (n - 0x10000) / 0x400) ++ unitText (0xdc00 + (n - 0x10000) % 0x400)

def writeString (s : String) : List Char := '"' :: (s.toList.flatMap writeChar ++ ['"'])

/-- One code point of a string: an escape if it is a surrogate, else a character. -/
def writePoint (point : Nat) : List Char :=
  if Utf8.isSurrogate point then unitText point else writeChar (Char.ofNat point)

mutual

def write : Json → List Char
  | .null => "null".toList
  | .bool true => "true".toList
  | .bool false => "false".toList
  | .integer n => Text.integerText n
  | .decimal literal => literal.toList
  | .text s => writeString s
  | .unpaired points => '"' :: (points.flatMap writePoint ++ ['"'])
  | .array items => '[' :: (writeItems items ++ [']'])
  | .object members => '\x7b' :: (writeMembers members ++ ['\x7d'])

def writeItems : List Json → List Char
  | [] => []
  | [item] => write item
  | item :: items => write item ++ (',' :: ' ' :: writeItems items)

def writeMembers : List (String × Json) → List Char
  | [] => []
  | [(key, value)] => writeString key ++ (':' :: ' ' :: write value)
  | (key, value) :: members =>
    writeString key ++ (':' :: ' ' :: (write value ++ (',' :: ' ' :: writeMembers members)))

end

/-- The document on one line. -/
def render (j : Json) : String := String.ofList (write j)

end Attribution.Json
