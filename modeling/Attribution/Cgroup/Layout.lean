import Attribution.Cgroup.Membership

namespace Attribution

structure CgroupPattern where
  before : String
  after : String
  deriving DecidableEq, Repr

abbrev CgroupLayout := List CgroupPattern

/-- The id of a container and the path that shows it. -/
structure CgroupMatch where
  containerId : String
  path : String
  deriving DecidableEq, Repr

/-- The tasks of containerd's default namespace lie in a directory of that name. -/
def containerdLayout : CgroupLayout := [⟨"/default/", ""⟩]

def idLength : Nat := 64

/-- How many digits of an id are kept. -/
def shortIdLength : Nat := 12

def isHexDigit (c : Char) : Bool :=
  ('0' ≤ c && c ≤ '9') || ('a' ≤ c && c ≤ 'f') || ('A' ≤ c && c ≤ 'F')

def isContainerId (cs : List Char) : Bool := cs.length == idLength && cs.all isHexDigit

/-- What stands between the last `before` of a path and the last `after` behind it. -/
def CgroupPattern.between? (pattern : CgroupPattern) (path : List Char) : Option (List Char) :=
  match Text.afterLast? pattern.before.toList path with
  | none => none
  | some rest =>
    if pattern.after = "" then some rest else Text.beforeLast? pattern.after.toList rest

def CgroupPattern.id? (pattern : CgroupPattern) (path : List Char) : Option (List Char) :=
  (pattern.between? path).filter isContainerId

/-- The short id that a path shows under the first pattern that fits. -/
def CgroupLayout.shortId? (layout : CgroupLayout) (path : String) : Option String :=
  (layout.findSome? fun pattern => pattern.id? path.toList).map fun id =>
    String.ofList (id.take shortIdLength)

/-- The match of the first membership whose path shows an id. -/
def CgroupLayout.match? (layout : CgroupLayout) (memberships : List Membership) :
    Option CgroupMatch :=
  memberships.findSome? fun m => (CgroupLayout.shortId? layout m.path).map fun id => ⟨id, m.path⟩

end Attribution
