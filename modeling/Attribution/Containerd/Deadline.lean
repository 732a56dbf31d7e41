import Attribution.Number.Binary

namespace Attribution.Deadline

/-- The seconds of a number of milliseconds, if it is not too large. -/
def seconds? (milliseconds : Nat) : Option Binary :=
  let (n, d) := (Binary.nearest milliseconds 1).fraction
  if Nat.pow 2 Binary.limitExponent ≤ n / d then none else some (Binary.nearest n (1000 * d))

/-- The seconds of a limit with three decimals, if it is not too large. -/
def text? (milliseconds : Int) : Option String :=
  (seconds? milliseconds.natAbs).map fun b => if milliseconds < 0 then "-" ++ b.text else b.text

end Attribution.Deadline
