import Attribution.Json.Value
import Attribution.Text.Integer

namespace Attribution.Json

structure Dialect where
  /-- How many arrays and objects that are not empty may lie inside each other. -/
  maxDepth : Option Nat
  /-- How many digits a whole number may have. -/
  maxInteger : Option Nat
  /-- How many digits the whole part of a number with a fraction or an exponent may have. -/
  maxWhole : Option Nat
  /-- Whether a string may hold a surrogate without a partner. -/
  unpaired : Bool

def isSpace (c : Char) : Bool := c = ' ' || c = '\t' || c = '\n' || c = '\r'

def skipSpace (cs : List Char) : List Char := cs.dropWhile isSpace

/-- The value of a hexadecimal digit in either case. -/
def hexValue? (c : Char) : Option Nat :=
  if '0' ≤ c ∧ c ≤ '9' then some (c.toNat - 48)
  else if 'a' ≤ c ∧ c ≤ 'f' then some (c.toNat - 87)
  else if 'A' ≤ c ∧ c ≤ 'F' then some (c.toNat - 55)
  else none

def hexFour? (a b c d : Char) : Option Nat := do
  return (((← hexValue? a) * 16 + (← hexValue? b)) * 16 + (← hexValue? c)) * 16 + (← hexValue? d)

/-- What a backslash and one character stand for. -/
def escape? (c : Char) : Option Char :=
  match c with
  | '"' => some '"'
  | '\\' => some '\\'
  | '/' => some '/'
  | 'b' => some '\x08'
  | 'f' => some '\x0c'
  | 'n' => some '\n'
  | 'r' => some '\r'
  | 't' => some '\t'
  | _ => none

/-- The code units of a string up to its closing quote, and the text after that. A character written
as itself is one unit; so is every escape. -/
def readUnits : List Char → Option (List Nat × List Char)
  | [] => none
  | '"' :: cs => some ([], cs)
  | '\\' :: 'u' :: a :: b :: c :: d :: cs => do
    let unit ← hexFour? a b c d
    let (units, rest) ← readUnits cs
    return (unit :: units, rest)
  | '\\' :: e :: cs => do
    let c ← escape? e
    let (units, rest) ← readUnits cs
    return (c.toNat :: units, rest)
  | c :: cs => do
    if c.toNat < 0x20 ∨ c = '\\' then none
    else
      let (units, rest) ← readUnits cs
      return (c.toNat :: units, rest)

def isHigh (unit : Nat) : Bool := 0xd800 ≤ unit && unit < 0xdc00

def isLow (unit : Nat) : Bool := 0xdc00 ≤ unit && unit < 0xe000

/-- The code point of two partnered surrogates. -/
def pairPoint (high low : Nat) : Nat := 0x10000 + (high - 0xd800) * 0x400 + (low - 0xdc00)

/-- The code points of code units. A surrogate without a partner is one of its own. -/
def codePoints : List Nat → List Nat
  | high :: low :: units =>
    if isHigh high && isLow low then pairPoint high low :: codePoints units
    else high :: codePoints (low :: units)
  | units => units

/-- The characters of code units; two partnered surrogates are one character. There is none if a
surrogate has no partner. -/
def joinUnits : List Nat → Option (List Char)
  | [] => some []
  | high :: low :: units =>
    if isHigh high then
      if isLow low then
        (joinUnits units).map (Char.ofNat (pairPoint high low) :: ·)
      else none
    else if isLow high then none
    else (joinUnits (low :: units)).map (Char.ofNat high :: ·)
  | [unit] => if isHigh unit || isLow unit then none else some [Char.ofNat unit]

/-- A string after its opening quote. -/
def readString (d : Dialect) (cs : List Char) : Option (Json × List Char) := do
  let (units, rest) ← readUnits cs
  match joinUnits units with
  | some chars => return (.text (String.ofList chars), rest)
  | none => if d.unpaired then return (.unpaired (codePoints units), rest) else none

def within (limit : Option Nat) (n : Nat) : Bool :=
  match limit with
  | none => true
  | some most => n ≤ most

/-- The fraction that may follow a whole number. -/
def readFraction : List Char → Option (List Char × List Char)
  | '.' :: cs =>
    let digits := cs.takeWhile Char.isDigit
    if digits.isEmpty then none else some ('.' :: digits, cs.dropWhile Char.isDigit)
  | cs => some ([], cs)

/-- The exponent that may follow a number. -/
def readExponent : List Char → Option (List Char × List Char)
  | [] => some ([], [])
  | c :: cs =>
    if c = 'e' ∨ c = 'E' then
      let (sign, body) :=
        match cs with
        | '+' :: r => (['+'], r)
        | '-' :: r => (['-'], r)
        | r => ([], r)
      let digits := body.takeWhile Char.isDigit
      if digits.isEmpty then none
      else some (c :: (sign ++ digits), body.dropWhile Char.isDigit)
    else some ([], c :: cs)

def digitValue (c : Char) : Nat := c.toNat - 48

/-- A number without its sign. -/
def readUnsigned (d : Dialect) (negative : Bool) (cs : List Char) : Option (Json × List Char) := do
  let whole := cs.takeWhile Char.isDigit
  if whole.isEmpty || (whole.head? == some '0' && whole.length != 1) then none
  let (fraction, rest) ← readFraction (cs.dropWhile Char.isDigit)
  let (exponent, rest) ← readExponent rest
  if fraction.isEmpty && exponent.isEmpty then
    if within d.maxInteger whole.length then
      let n : Int := Text.ofDigits (whole.map digitValue)
      return (.integer (if negative then -n else n), rest)
    else none
  else if within d.maxWhole whole.length then
    let sign := if negative then ['-'] else []
    return (.decimal (String.ofList (sign ++ whole ++ fraction ++ exponent)), rest)
  else none

def readNumber (d : Dialect) : List Char → Option (Json × List Char)
  | '-' :: cs => readUnsigned d true cs
  | cs => readUnsigned d false cs

/-- The words that stand for a value. -/
def words : List (String × Json) :=
  [("null", .null), ("true", .bool true), ("false", .bool false), ("NaN", .decimal "NaN"),
   ("Infinity", .decimal "Infinity"), ("-Infinity", .decimal "-Infinity")]

/-- The word that the text begins with. -/
def readWord (cs : List Char) : Option (Json × List Char) :=
  words.findSome? fun w =>
    if w.1.toList.isPrefixOf cs then some (w.2, cs.drop w.1.toList.length) else none

/-- What a document opens, one inside another. -/
inductive Nest where
  | array
  | object
  deriving DecidableEq, Repr

/-- Why a text is no document. -/
inductive ReadError where
  | malformed
  /-- Something is opened deeper than the dialect allows. -/
  | tooDeep (opened : Nest)
  deriving DecidableEq, Repr

abbrev Read (α : Type) := Except ReadError (α × List Char)

/-- A reading that has no other failure than a malformed text. -/
def wellFormed {α : Type} : Option α → Except ReadError α
  | some a => .ok a
  | none => .error .malformed

mutual

/-- A value, with no blank before it. The first number bounds the steps, the second is the depth
that is left. -/
def readValue (d : Dialect) : Nat → Nat → List Char → Read Json
  | 0, _, _ => .error .malformed
  | steps + 1, depth, '[' :: cs =>
    match skipSpace cs with
    | ']' :: rest => .ok (.array [], rest)
    | body =>
      match depth with
      | 0 => .error (.tooDeep .array)
      | depth + 1 => (readItems d steps depth body).map fun p => (.array p.1, p.2)
  | steps + 1, depth, '\x7b' :: cs =>
    match skipSpace cs with
    | '\x7d' :: rest => .ok (.object [], rest)
    | body =>
      match depth with
      | 0 => .error (.tooDeep .object)
      | depth + 1 => (readMembers d steps depth body).map fun p => (.object p.1, p.2)
  | _ + 1, _, '"' :: cs => wellFormed (readString d cs)
  | _ + 1, _, cs =>
    match readWord cs with
    | some p => .ok p
    | none => wellFormed (readNumber d cs)

/-- The items of an array from the first one to the closing bracket. -/
def readItems (d : Dialect) : Nat → Nat → List Char → Read (List Json)
  | 0, _, _ => .error .malformed
  | steps + 1, depth, cs =>
    match readValue d steps depth cs with
    | .error e => .error e
    | .ok (item, rest) =>
      match skipSpace rest with
      | ',' :: rest =>
        (readItems d steps depth (skipSpace rest)).map fun p => (item :: p.1, p.2)
      | ']' :: rest => .ok ([item], rest)
      | _ => .error .malformed

/-- The members of an object from the first one to the closing brace. -/
def readMembers (d : Dialect) : Nat → Nat → List Char → Read (List (String × Json))
  | 0, _, _ => .error .malformed
  | steps + 1, depth, '"' :: cs =>
    match readString d cs with
    | none => .error .malformed
    | some (key, rest) =>
      match skipSpace rest with
      | ':' :: rest =>
        match readValue d steps depth (skipSpace rest) with
        | .error e => .error e
        | .ok (value, rest) =>
          let name := match key with | .text s => s | _ => ""
          match skipSpace rest with
          | ',' :: rest =>
            (readMembers d steps depth (skipSpace rest)).map fun p => ((name, value) :: p.1, p.2)
          | '\x7d' :: rest => .ok ([(name, value)], rest)
          | _ => .error .malformed
      | _ => .error .malformed
  | _ + 1, _, _ => .error .malformed

end

/-- The document that a text writes: one value with nothing but blanks around it. -/
def read (d : Dialect) (cs : List Char) : Except ReadError Json := do
  let (value, rest) ← readValue d (2 * cs.length + 2) (d.maxDepth.getD cs.length) (skipSpace cs)
  if (skipSpace rest).isEmpty then return value else throw .malformed

end Attribution.Json
