namespace Attribution.Text

/-- The part before the first `sep`, and the part after it if there is one. -/
def cutFirst (sep : Char) : List Char → List Char × Option (List Char)
  | [] => ([], none)
  | c :: cs =>
    if c = sep then ([], some cs)
    else ((c :: (cutFirst sep cs).1), (cutFirst sep cs).2)

/-- The parts around the last `sep`, if there is one. -/
def cutLast? (sep : Char) : List Char → Option (List Char × List Char)
  | [] => none
  | c :: cs =>
    match cutLast? sep cs with
    | some (before, after) => some (c :: before, after)
    | none => if c = sep then some ([], cs) else none

/-- The parts between all occurrences of `sep`; one more part than there are occurrences. -/
def splitAll (sep : Char) : List Char → List (List Char)
  | [] => [[]]
  | c :: cs =>
    if c = sep then [] :: splitAll sep cs
    else
      match splitAll sep cs with
      | [] => [[c]]
      | part :: parts => (c :: part) :: parts

/-- What follows the last occurrence of `word`. -/
def afterLast? (word : List Char) : List Char → Option (List Char)
  | [] => if word.isEmpty then some [] else none
  | c :: cs =>
    match afterLast? word cs with
    | some rest => some rest
    | none => if word.isPrefixOf (c :: cs) then some ((c :: cs).drop word.length) else none

/-- What precedes the last occurrence of `word`. -/
def beforeLast? (word : List Char) : List Char → Option (List Char)
  | [] => if word.isEmpty then some [] else none
  | c :: cs =>
    match beforeLast? word cs with
    | some before => some (c :: before)
    | none => if word.isPrefixOf (c :: cs) then some [] else none

/-- The rest after `word`, if the text begins with it. -/
def dropWord? {α : Type} [BEq α] (word cs : List α) : Option (List α) :=
  if word.isPrefixOf cs then some (cs.drop word.length) else none

/-- Whether `word` occurs anywhere in the text. -/
def occursIn (word : List Char) : List Char → Bool
  | [] => word.isEmpty
  | c :: cs => word.isPrefixOf (c :: cs) || occursIn word cs

end Attribution.Text
