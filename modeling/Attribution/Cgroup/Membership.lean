import Attribution.Text.Blank
import Attribution.Text.Cut
import Attribution.Text.Lines

namespace Attribution

/-- The path of a process in the hierarchy of one controller. The unified hierarchy has the empty
name. -/
structure Membership where
  subsystem : String
  path : String
  deriving DecidableEq, Repr, Inhabited

namespace Membership

/-- The controllers and the path of a line that has three fields. Further colons belong to the path. -/
def fields? (line : List Char) : Option (List Char × List Char) :=
  match Text.cutFirst ':' (Text.strip line) with
  | (_, none) => none
  | (_, some rest) =>
    match Text.cutFirst ':' rest with
    | (_, none) => none
    | (controllers, some path) => some (controllers, path)

/-- A controller's name without the mark of a named hierarchy. -/
def plainName (controller : List Char) : List Char :=
  (Text.dropWord? "name=".toList controller).getD controller

/-- One membership for each controller of a line, or the one of the unified hierarchy. -/
def ofFields (controllers path : List Char) : List Membership :=
  if controllers = [] then [⟨"", String.ofList path⟩]
  else
    (Text.splitAll ',' controllers).map fun c =>
      ⟨String.ofList (plainName c), String.ofList path⟩

def ofLine (line : List Char) : List Membership :=
  match fields? line with
  | none => []
  | some (controllers, path) => ofFields controllers path

/-- The memberships of all lines in order; a line without three fields has none. -/
def parse (text : String) : List Membership :=
  (Text.splitLines text.toList).flatMap ofLine

/-- The path of the first unified membership that has one. -/
def unifiedPath : List Membership → String
  | [] => ""
  | m :: ms => if m.subsystem = "" ∧ m.path ≠ "" then m.path else unifiedPath ms

/-- The path for a controller: that of its own first membership, else the unified one. -/
def pathOf (memberships : List Membership) (subsystem : String) : String :=
  match memberships.find? fun m => m.subsystem == subsystem with
  | some m => m.path
  | none => unifiedPath memberships

end Membership
end Attribution
