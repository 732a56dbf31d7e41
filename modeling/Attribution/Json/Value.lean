namespace Attribution

inductive Json where
  | null
  | bool (value : Bool)
  | integer (value : Int)
  /-- A number with a fraction or an exponent, or one of the words for no finite number, as written. -/
  | decimal (literal : String)
  | text (value : String)
  /-- A string that no text can hold because a surrogate in it has no partner, by its code points. -/
  | unpaired (points : List Nat)
  | array (items : List Json)
  | object (members : List (String × Json))
  deriving Inhabited

namespace Json

/-- The value of the last member with the key. -/
def lookup? (members : List (String × Json)) (key : String) : Option Json :=
  (members.reverse.find? fun m => m.1 == key).map (·.2)

end Json
end Attribution
