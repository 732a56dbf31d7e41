namespace Attribution.Event

/-- Control characters that no event carries. -/
def isStripped (c : Char) : Bool :=
  let n := c.toNat
  n ≤ 0x8 || n == 0xb || n == 0xc || (0xe ≤ n && n ≤ 0x1f) || n == 0x7f

/-- The first `length` characters; with a negative length all but that many at the end. -/
def cut (length : Int) (cs : List Char) : List Char :=
  if 0 ≤ length then cs.take length.toNat else cs.take (cs.length - length.natAbs)

def sanitize (length : Int) (s : String) : String :=
  String.ofList (cut length (s.toList.filter fun c => !isStripped c))

def maxText : Int := 256

def maxPath : Int := 512

def maxEnv : Int := 1024

end Attribution.Event
