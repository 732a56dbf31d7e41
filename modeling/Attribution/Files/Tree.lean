import Attribution.Assoc
import Attribution.Files.Access
import Attribution.Text.Cut

namespace Attribution

inductive FileTree where
  | file (bytes : List UInt8)
  | socket
  | link (target : String)
  | directory (entries : List (String × FileTree))
  deriving Inhabited

namespace FileTree

abbrev Entries := List (String × FileTree)

/-- The longest name of an entry and the longest path, in bytes. -/
def maxName : Nat := 255

def maxPath : Nat := 4095

def maxLinks : Nat := 40

def components (path : List Char) : List (List Char) := Text.splitAll '/' path

/-- Walks the components from the innermost of the open directories. The empty component and the
single dot stay there, two dots leave it. A path that leaves the outermost directory leads nowhere. -/
def walk (links : Nat) (top : Entries) (outer : List Entries) (path : List (List Char)) :
    Except AccessError FileTree :=
  match path with
  | [] => .ok (.directory top)
  | name :: rest =>
    if name = [] ∨ name = ['.'] then walk links top outer rest
    else if name = ['.', '.'] then
      match outer with
      | [] => .error .missing
      | next :: outer => walk links next outer rest
    else if maxName < Utf8.size name then .error .nameTooLong
    else
      match Assoc.find? top (String.ofList name) with
      | none => .error .missing
      | some (.directory entries) => walk links entries (top :: outer) rest
      | some (.link target) =>
        match links with
        | 0 => .error .tooManyLinks
        | links + 1 =>
          if target.toList.head? = some '/' then .error .missing
          else walk links top outer (components target.toList ++ rest)
      | some node => if rest = [] then .ok node else .error .notDirectory
  termination_by (links, path.length)

/-- The name of the working directory in the directory around it, which holds nothing else. -/
def homeName : String := "w"

/-- What a relative path leads to from the working directory. -/
def locate (home : Entries) (path : String) : Except AccessError FileTree :=
  let cs := path.toList
  if cs = [] then .error .missing
  else if maxPath < Utf8.size cs then .error .nameTooLong
  else if cs.head? = some '/' then .error .missing
  else walk maxLinks home [[(homeName, .directory home)]] (components cs)

/-- The tree as a file system. -/
def fileSystem (home : Entries) : FileSystem where
  isSocket path :=
    (locate home path).map fun node =>
      match node with
      | .socket => true
      | _ => false
  read path :=
    match locate home path with
    | .ok (.file bytes) => .ok bytes
    | .ok (.directory _) => .error .isDirectory
    | .ok _ => .error .isSocket
    | .error e => .error e
  list path :=
    match locate home path with
    | .ok (.directory entries) => .ok (entries.map (·.1))
    | .ok _ => .error .notDirectory
    | .error e => .error e

/-- Puts a node where the components lead, making the directories on the way. -/
def place (node : FileTree) (entries : Entries) : List String → Entries
  | [] => entries
  | [name] => Assoc.set entries name node
  | name :: rest =>
    match Assoc.find? entries name with
    | some (.directory inner) => Assoc.set entries name (.directory (place node inner rest))
    | _ => Assoc.set entries name (.directory (place node [] rest))

/-- The tree in which every node stands at its path, the later ones put in last. A directory that is
already there keeps what it holds. -/
def ofPaths (nodes : List (String × FileTree)) : Entries :=
  nodes.foldl (fun entries p =>
    let path := ((components p.1.toList).filter fun name => name != [] && name != ['.']).map String.ofList
    match p.2, (locate entries p.1) with
    | .directory [], .ok (.directory _) => entries
    | node, _ => place node entries path) []

end FileTree
end Attribution
