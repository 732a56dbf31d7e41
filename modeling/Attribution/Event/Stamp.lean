import Attribution.Text.Quoted

namespace Attribution

structure Stamp where
  eventId : String
  timestamp : String
  deriving DecidableEq, Repr

namespace Stamp

/-- The random identifier of 122 bits, in groups of digits with the marks of its kind. -/
def randomId (bits : Nat) : String :=
  let part (width shift : Nat) : String :=
    String.ofList (Text.hexText width (bits / Nat.pow 2 shift))
  let variant := 0x8000 + bits / Nat.pow 2 48 % 0x4000
  part 8 90 ++ "-" ++ part 4 74 ++ "-4" ++ part 3 62 ++ "-" ++
    String.ofList (Text.hexText 4 variant) ++ "-" ++ part 12 0

end Stamp
end Attribution
