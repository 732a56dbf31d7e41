import Attribution.Text.Blank
import Attribution.Text.Digit

namespace Attribution.Text

inductive IntegerFault where
  /-- The text is no whole number. -/
  | malformed
  /-- The number has too many digits. -/
  | tooLong
  deriving DecidableEq, Repr

def maxDigits : Nat := 4300

/-- The digits after a first one, with at most one underscore before each. -/
def moreDigits? : List Char → Option (List Nat)
  | [] => some []
  | '_' :: c :: cs => do
    let d ← decimalValue? c
    let ds ← moreDigits? cs
    return d :: ds
  | c :: cs => do
    let d ← decimalValue? c
    let ds ← moreDigits? cs
    return d :: ds

/-- The digits of an unsigned number. -/
def digits? : List Char → Option (List Nat)
  | [] => none
  | c :: cs => do
    let d ← decimalValue? c
    let ds ← moreDigits? cs
    return d :: ds

def ofDigits (ds : List Nat) : Nat := ds.foldl (fun n d => 10 * n + d) 0

/-- Whether a minus sign leads, and the text after the sign if there is one. -/
def cutSign : List Char → Bool × List Char
  | '-' :: cs => (true, cs)
  | '+' :: cs => (false, cs)
  | cs => (false, cs)

def readInteger (cs : List Char) : Except IntegerFault Int :=
  let (negative, body) := cutSign (trim isSpace cs)
  match digits? body with
  | none => .error .malformed
  | some ds =>
    if maxDigits < ds.length then .error .tooLong
    else .ok (if negative then -(ofDigits ds : Int) else ofDigits ds)

/-- The number that a text writes, if it writes one. -/
def integer? (cs : List Char) : Option Int :=
  match readInteger cs with
  | .ok n => some n
  | .error _ => none

/-- The decimal digits of a number. -/
def natText (n : Nat) : List Char := Nat.toDigits 10 n

def integerText (n : Int) : List Char :=
  if n < 0 then '-' :: natText n.natAbs else natText n.natAbs

/-- Whether a number can be written within the limit on digits. -/
def writable (n : Int) : Bool := (natText n.natAbs).length ≤ maxDigits

end Attribution.Text
