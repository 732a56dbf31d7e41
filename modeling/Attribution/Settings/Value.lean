import Attribution.Json.Value
import Attribution.Number.Binary
import Attribution.Settings.Basic
import Attribution.Text.Blank
import Attribution.Text.Digit
import Attribution.Text.Integer

namespace Attribution

/-- What is wrong with a value. -/
inductive Issue where
  | extraForbidden
  | stringType
  | listType
  | intType
  | intParsing
  | intParsingSize
  | intFromFloat
  | finiteNumber
  /-- The number is not above the given one. -/
  | greaterThan (least : Int)
  | greaterThanEqual (least : Int)
  deriving DecidableEq, Repr

namespace Issue

def kind : Issue → String
  | .extraForbidden => "extra_forbidden"
  | .stringType => "string_type"
  | .listType => "list_type"
  | .intType => "int_type"
  | .intParsing => "int_parsing"
  | .intParsingSize => "int_parsing_size"
  | .intFromFloat => "int_from_float"
  | .finiteNumber => "finite_number"
  | .greaterThan _ => "greater_than"
  | .greaterThanEqual _ => "greater_than_equal"

def message : Issue → String
  | .extraForbidden => "Extra inputs are not permitted"
  | .stringType => "Input should be a valid string"
  | .listType => "Input should be a valid list"
  | .intType => "Input should be a valid integer"
  | .intParsing => "Input should be a valid integer, unable to parse string as an integer"
  | .intParsingSize => "Unable to parse input string as an integer, exceeded maximum size"
  | .intFromFloat => "Input should be a valid integer, got a number with a fractional part"
  | .finiteNumber => "Input should be a finite number"
  | .greaterThan least => "Input should be greater than " ++ toString least
  | .greaterThanEqual least => "Input should be greater than or equal to " ++ toString least

end Issue

/-- One step to a value inside the settings. -/
inductive Place where
  | member (name : String)
  | item (index : Nat)
  deriving DecidableEq, Repr

def Place.text : Place → String
  | .member name => name
  | .item index => toString index

structure Complaint where
  loc : List Place
  issue : Issue
  deriving DecidableEq, Repr

namespace Setting

/-- Whether a minus sign leads, and the text after it. -/
def cutMinus : List Char → Bool × List Char
  | '-' :: cs => (true, cs)
  | cs => (false, cs)

/-- A whole number in plain digits, with a minus sign at most and no zero in front. Too many digits
are that, whatever follows them. -/
def plainInteger (cs : List Char) : Except Issue Int :=
  let (negative, body) := cutMinus cs
  let digits := body.takeWhile Char.isDigit
  let n : Int := Text.ofDigits (digits.map fun c => c.toNat - 48)
  if digits.head? == some '0' then
    if body.length = 1 then .ok 0 else .error .intParsing
  else if Text.maxDigits < digits.length then .error .intParsingSize
  else if digits.isEmpty || digits.length != body.length then .error .intParsing
  else .ok (if negative then -n else n)

/-- The number after zeros and underscores at its front, where a minus sign may stand too; `last` is
the character before. -/
def afterZeros (last : Char) : List Char → Option (List Char)
  | [] => some [last]
  | c :: cs =>
    if c = '0' ∨ c = '_' then afterZeros c cs
    else if c.isDigit || c == '-' then some (c :: cs)
    else if c = '.' then some (last :: c :: cs)
    else none

def dropZeros? : List Char → Option (List Char)
  | [] => none
  | '0' :: cs => afterZeros '0' cs
  | c :: cs => if c.isDigit || c == '-' then some (c :: cs) else none

/-- The text without a plus sign at its front. -/
def dropPlus? : List Char → Option (List Char)
  | '+' :: '-' :: _ => none
  | '+' :: cs => some cs
  | cs => some cs

/-- The text without a fraction that is all zeros, one at least. -/
def dropZeroFraction (cs : List Char) : List Char :=
  match cs.dropWhile (· != '.') with
  | _ :: '0' :: fraction => if fraction.all (· == '0') then cs.takeWhile (· != '.') else cs
  | _ => cs

def hasDouble (mark : Char) : List Char → Bool
  | a :: b :: cs => (a == mark && b == mark) || hasDouble mark (b :: cs)
  | _ => false

/-- The text without single underscores inside it. -/
def dropUnderscores (cs : List Char) : List Char :=
  if cs.head? == some '_' || cs.getLast? == some '_' || hasDouble '_' cs then cs
  else cs.filter (· != '_')

/-- The plain number in a text with blanks around it, signs and zeros in front, single underscores or a
fraction of zeros. -/
def cleanInteger? (cs : List Char) : Option (List Char) := do
  let (negative, body) := cutMinus (← dropPlus? (Text.trim Text.isSpace cs))
  let digits := dropUnderscores (dropZeroFraction (← dropZeros? body))
  return if negative then '-' :: digits else digits

/-- The number that a text writes, as it stands or cleaned. That it has too many digits counts only as it
stands. -/
def integerOfText (s : String) : Except Issue Int :=
  match plainInteger s.toList with
  | .error .intParsing =>
    match (cleanInteger? s.toList).map plainInteger with
    | some (.ok n) => .ok n
    | _ => .error .intParsing
  | other => other

/-- The parts of a written decimal: its sign, its digits without the point, and the power of ten
that they count. -/
def decimalParts (cs : List Char) : Bool × List Char × Int :=
  let (negative, body) := Text.cutSign cs
  let mantissa := body.takeWhile fun c => c != 'e' && c != 'E'
  let exponent := ((body.dropWhile fun c => c != 'e' && c != 'E').drop 1)
  let power := (Text.integer? exponent).getD 0
  let whole := mantissa.takeWhile (· != '.')
  let fraction := (mantissa.dropWhile (· != '.')).drop 1
  (negative, whole ++ fraction, power - fraction.length)

/-- The whole number that a binary number of 53 digits is, if it is one of at most 63 binary
digits. -/
def wholeBinary (b : Binary) : Except Issue Int :=
  let (n, d) := b.fraction
  if Nat.pow 2 Binary.limitExponent ≤ n / d then .error .finiteNumber
  else if n % d ≠ 0 then .error .intFromFloat
  else if Nat.pow 2 63 ≤ n / d then .error .intParsingSize
  else .ok (n / d)

/-- Powers of ten past this one are too large for any number of digits that a line holds. -/
def maxPower : Int := 100000

/-- The number that a written decimal is near to. -/
def integerOfDecimal (literal : String) : Except Issue Int :=
  if literal = "NaN" ∨ literal = "Infinity" ∨ literal = "-Infinity" then .error .finiteNumber
  else
    let (negative, digits, power) := decimalParts literal.toList
    let n := Text.ofDigits (digits.map fun c => c.toNat - 48)
    let value :=
      if n = 0 then .ok 0
      else if maxPower < power then .error .finiteNumber
      else if 0 ≤ power then wholeBinary (Binary.nearest (n * Nat.pow 10 power.toNat) 1)
      else if power < -maxPower ∨ n * Nat.pow 2 1075 ≤ Nat.pow 10 (-power).toNat then .ok 0
      else wholeBinary (Binary.nearest n (Nat.pow 10 (-power).toNat))
    value.map fun v => if negative then -v else v

def integer (value : Json) : Except Issue Int :=
  match value with
  | .integer n => .ok n
  | .bool b => .ok (if b then 1 else 0)
  | .text s => integerOfText s
  | .decimal literal => integerOfDecimal literal
  | _ => .error .intType

def text (value : Json) : Except Issue String :=
  match value with
  | .text s => .ok s
  | _ => .error .stringType

def socketName (value : Json) : Except Issue SocketName :=
  match value with
  | .text s => .ok (.text s)
  | .unpaired points =>
    if stray : points.any Utf8.isSurrogate = true then .ok (.unpaired points stray)
    else .ok (.text (String.ofList (points.map Char.ofNat)))
  | _ => .error .stringType

/-- A number that passes a test. -/
def integerThat (test : Int → Bool) (issue : Issue) (value : Json) : Except Issue Int := do
  let n ← integer value
  if test n then return n else throw issue

/-- The names in a list, or what is wrong with each item that is none. -/
def socketNames (loc : List Place) (value : Json) : Except (List Complaint) (List SocketName) :=
  match value with
  | .array items =>
    let complaints := (items.zipIdx.filterMap fun (item, i) =>
      match socketName item with
      | .ok _ => none
      | .error issue => some (⟨loc ++ [.item i], issue⟩ : Complaint))
    if complaints.isEmpty then .ok (items.filterMap fun item => (socketName item).toOption)
    else .error complaints
  | _ => .error [⟨loc, .listType⟩]

end Setting
end Attribution
