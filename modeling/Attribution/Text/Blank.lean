namespace Attribution.Text

/-- The information separators U+001C to U+001F. -/
def isSeparator (c : Char) : Bool := 0x1c ≤ c.toNat && c.toNat ≤ 0x1f

/-- White space of any script, the information separators left out. -/
def isSpace (c : Char) : Bool :=
  let n := c.toNat
  (0x9 ≤ n && n ≤ 0xd) || n == 0x20 || n == 0x85 || n == 0xa0 || n == 0x1680 ||
    (0x2000 ≤ n && n ≤ 0x200a) || n == 0x2028 || n == 0x2029 || n == 0x202f || n == 0x205f ||
    n == 0x3000

/-- White space of any script. -/
def isBlank (c : Char) : Bool := isSpace c || isSeparator c

/-- The text without the characters of the class at its two ends. -/
def trim (blank : Char → Bool) (cs : List Char) : List Char :=
  ((cs.dropWhile blank).reverse.dropWhile blank).reverse

/-- The text without blanks at its two ends. -/
def strip (cs : List Char) : List Char := trim isBlank cs

end Attribution.Text
