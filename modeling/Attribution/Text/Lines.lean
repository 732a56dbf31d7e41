namespace Attribution.Text

def isLineBoundary (c : Char) : Bool :=
  let n := c.toNat
  (0xa ≤ n && n ≤ 0xd) || (0x1c ≤ n && n ≤ 0x1e) || n == 0x85 || n == 0x2028 || n == 0x2029

/-- The lines of the text after `line`, whose characters are already read, last one first. -/
def splitLinesFrom (line : List Char) : List Char → List (List Char)
  | [] => if line.isEmpty then [] else [line.reverse]
  | '\r' :: '\n' :: cs => line.reverse :: splitLinesFrom [] cs
  | c :: cs =>
    if isLineBoundary c then line.reverse :: splitLinesFrom [] cs
    else splitLinesFrom (c :: line) cs

/-- The lines without their boundaries; a boundary at the very end opens no further line. -/
def splitLines (cs : List Char) : List (List Char) := splitLinesFrom [] cs

/-- Every carriage return, alone or before a line feed, becomes a line feed. -/
def unifyNewlines : List Char → List Char
  | [] => []
  | '\r' :: '\n' :: cs => '\n' :: unifyNewlines cs
  | c :: cs => (if c = '\r' then '\n' else c) :: unifyNewlines cs

end Attribution.Text
