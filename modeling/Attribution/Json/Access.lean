import Attribution.Json.Value

namespace Attribution.Json

def text? : Json → Option String
  | .text s => some s
  | _ => none

def items : Json → List Json
  | .array items => items
  | _ => []

def members : Json → List (String × Json)
  | .object members => members
  | _ => []

/-- The value under a key, unless it is null. -/
def present? (m : List (String × Json)) (key : String) : Option Json :=
  match lookup? m key with
  | some .null => none
  | other => other

def textAt? (m : List (String × Json)) (key : String) : Option String := (lookup? m key).bind text?

def textAt (m : List (String × Json)) (key : String) : String := (textAt? m key).getD ""

def itemsAt (m : List (String × Json)) (key : String) : List Json :=
  ((lookup? m key).map items).getD []

/-- The texts of the array under a key; items of another form are left out. -/
def textsAt (m : List (String × Json)) (key : String) : List String := (itemsAt m key).filterMap text?

def membersAt (m : List (String × Json)) (key : String) : List (String × Json) :=
  ((lookup? m key).map members).getD []

def flagAt? (m : List (String × Json)) (key : String) : Option Bool :=
  match lookup? m key with
  | some (.bool b) => some b
  | _ => none

/-- The two texts of an array of two. -/
def textPair (j : Json) : String × String :=
  match items j with
  | [a, b] => ((text? a).getD "", (text? b).getD "")
  | _ => ("", "")

/-- The pairs of texts in the array under a key. -/
def pairsAt (m : List (String × Json)) (key : String) : List (String × String) :=
  (itemsAt m key).map textPair

end Attribution.Json
