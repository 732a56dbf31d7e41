namespace Attribution

/-- The whole number nearest to a quotient; of two the even one. -/
def roundDiv (num den : Nat) : Nat :=
  let q := num / den
  let twice := 2 * (num % den)
  if twice < den ∨ (twice = den ∧ q % 2 = 0) then q else q + 1

/-- A number of binary digits times a power of two. -/
structure Binary where
  mantissa : Nat
  exponent : Int
  deriving DecidableEq, Repr

namespace Binary

def precision : Nat := 53

/-- Numbers from this power of two on are too large. -/
def limitExponent : Nat := 1024

/-- A number as a fraction of whole numbers. -/
def fraction (b : Binary) : Nat × Nat :=
  if 0 ≤ b.exponent then (b.mantissa * Nat.pow 2 b.exponent.toNat, 1)
  else (b.mantissa, Nat.pow 2 (-b.exponent).toNat)

/-- The numerator and denominator of a quotient divided by a power of two. -/
def scaleDown (num den : Nat) (exponent : Int) : Nat × Nat :=
  if 0 ≤ exponent then (num, den * Nat.pow 2 exponent.toNat)
  else (num * Nat.pow 2 (-exponent).toNat, den)

/-- The number of 53 binary digits that is nearest to a quotient. -/
def nearest (num den : Nat) : Binary :=
  if num = 0 then ⟨0, 0⟩
  else
    let guess : Int := (num.log2 : Int) - den.log2 - (precision - 1 : Nat)
    let (n, d) := scaleDown num den guess
    let exponent := if n < Nat.pow 2 (precision - 1) * d then guess - 1 else guess
    let (n, d) := scaleDown num den exponent
    ⟨roundDiv n d, exponent⟩

/-- A number with three decimals. -/
def text (b : Binary) : String :=
  let (n, d) := b.fraction
  let thousandths := roundDiv (1000 * n) d
  let decimals := (Nat.toDigits 10 (thousandths % 1000)).leftpad 3 '0'
  String.ofList (Nat.toDigits 10 (thousandths / 1000) ++ '.' :: decimals)

end Binary
end Attribution
