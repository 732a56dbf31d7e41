import Attribution.Assoc
import Attribution.Text.Blank
import Attribution.Text.Lines

namespace Attribution.EnvFile

/-- A reader of a part of the file: what it read and what follows. -/
abbrev Read (α : Type) := List Char → Option (α × List Char)

/-- Blanks that do not end a line. -/
def isInlineBlank (c : Char) : Bool := Text.isBlank c && c != '\n'

def skipInline (cs : List Char) : List Char := cs.dropWhile isInlineBlank

/-- What follows the line. -/
def skipLine (cs : List Char) : List Char := (cs.dropWhile (· != '\n')).drop 1

/-- The word that may stand before a name. -/
def skipExport (cs : List Char) : List Char :=
  if "export".toList.isPrefixOf cs then
    let rest := cs.drop 6
    if (rest.head?.any isInlineBlank) then skipInline rest else cs
  else cs

/-- A name, which may stand between single quotes. A comment has none. -/
def readKey : Read (Option String)
  | [] => none
  | '#' :: cs => some (none, '#' :: cs)
  | '\'' :: cs =>
    let key := cs.takeWhile (· != '\'')
    match cs.dropWhile (· != '\'') with
    | _ :: rest => if key.isEmpty then none else some (some (String.ofList key), rest)
    | [] => none
  | cs =>
    let isKeyChar c := c != '=' && c != '#' && !Text.isBlank c
    let key := cs.takeWhile isKeyChar
    if key.isEmpty then none else some (some (String.ofList key), cs.dropWhile isKeyChar)

/-- The text up to the closing quote. A character behind a backslash closes nothing. -/
def readQuoted (quote : Char) : Read (List Char)
  | [] => none
  | '\\' :: c :: cs => (readQuoted quote cs).map fun p => ('\\' :: c :: p.1, p.2)
  | c :: cs =>
    if c = quote then some ([], cs) else (readQuoted quote cs).map fun p => (c :: p.1, p.2)

/-- What a backslash and a character stand for between double quotes. -/
def doubleEscape? (c : Char) : Option Char :=
  match c with
  | '\\' => some '\\'
  | '\'' => some '\''
  | '"' => some '"'
  | 'a' => some '\x07'
  | 'b' => some '\x08'
  | 'f' => some '\x0c'
  | 'n' => some '\n'
  | 'r' => some '\r'
  | 't' => some '\t'
  | 'v' => some '\x0b'
  | _ => none

def singleEscape? (c : Char) : Option Char := if c = '\\' ∨ c = '\'' then some c else none

def unescape (escape? : Char → Option Char) : List Char → List Char
  | '\\' :: c :: cs =>
    match escape? c with
    | some e => e :: unescape escape? cs
    | none => '\\' :: unescape escape? (c :: cs)
  | c :: cs => c :: unescape escape? cs
  | [] => []

/-- The part before the first comment, which begins with a blank and a number sign. -/
def cutComment : List Char → List Char
  | [] => []
  | c :: cs =>
    if Text.isBlank c && (cs.dropWhile Text.isBlank).head? == some '#' then []
    else c :: cutComment cs

def dropTrailing (cs : List Char) : List Char := (cs.reverse.dropWhile Text.isBlank).reverse

def readValue : Read (List Char)
  | [] => some ([], [])
  | '\'' :: cs => (readQuoted '\'' cs).map fun p => (unescape singleEscape? p.1, p.2)
  | '"' :: cs => (readQuoted '"' cs).map fun p => (unescape doubleEscape? p.1, p.2)
  | cs => some (dropTrailing (cutComment (cs.takeWhile (· != '\n'))), cs.dropWhile (· != '\n'))

/-- The value behind an equals sign. A number sign right behind blanks begins a comment, so that there
is none but the empty value. -/
def readAssigned (cs : List Char) : Except (List Char) (List Char × List Char) :=
  let body := skipInline cs
  if body.length < cs.length && body.head? == some '#' then .ok ([], body)
  else
    match readValue body with
    | none => .error body
    | some p => .ok p

/-- The end of the line, which a comment may come before. -/
def readLineEnd (cs : List Char) : Option (List Char) :=
  let rest := skipInline cs
  match if rest.head? == some '#' then rest.dropWhile (· != '\n') else rest with
  | [] => some []
  | '\n' :: rest => some rest
  | _ => none

/-- One entry: a name, and a value if an equals sign follows. A failure says where reading
stopped. -/
def readEntry (cs : List Char) : Except (List Char) (Option (String × Option String) × List Char) :=
  let cs := skipExport cs
  match readKey cs with
  | none => .error cs
  | some (key, rest) =>
    let rest := skipInline rest
    match rest with
    | '=' :: body => do
      let (value, rest) ← readAssigned body
      match readLineEnd rest with
      | none => .error rest
      | some rest => .ok (key.map fun k => (k, some (String.ofList value)), rest)
    | _ =>
      match readLineEnd rest with
      | none => .error rest
      | some rest => .ok (key.map fun k => (k, none), rest)

/-- All entries in order. The number bounds the steps. -/
def readEntries : Nat → List Char → List (String × Option String)
  | 0, _ => []
  | steps + 1, cs =>
    match cs.dropWhile Text.isBlank with
    | [] => []
    | cs =>
      match readEntry cs with
      | .error rest => readEntries steps (skipLine rest)
      | .ok (none, rest) => readEntries steps rest
      | .ok (some entry, rest) => entry :: readEntries steps rest

/-- A reference after its dollar sign and brace: a name, the default it may have, and what follows
the closing brace. -/
def readReference (cs : List Char) : Option ((String × Option String) × List Char) :=
  let name := String.ofList (cs.takeWhile fun c => c != '\x7d' && c != ':')
  match cs.dropWhile fun c => c != '\x7d' && c != ':' with
  | '\x7d' :: rest => some ((name, none), rest)
  | ':' :: '-' :: body =>
    match body.dropWhile (· != '\x7d') with
    | _ :: rest =>
      some ((name, some (String.ofList (body.takeWhile (· != '\x7d')))), rest)
    | [] => none
  | _ => none

/-- The text with its references replaced by what `look` finds. The number bounds the steps. -/
def expand (look : String → Option (Option String)) : Nat → List Char → List Char
  | 0, cs => cs
  | _ + 1, [] => []
  | steps + 1, '$' :: '\x7b' :: cs =>
    match readReference cs with
    | some ((name, default), rest) =>
      let value :=
        match look name with
        | some found => found.getD ""
        | none => default.getD ""
      value.toList ++ expand look steps rest
    | none => '$' :: expand look steps ('\x7b' :: cs)
  | steps + 1, c :: cs => c :: expand look steps cs

/-- The values in order of their names' first places, every reference replaced. Values of the file
come before those of the environment. -/
def resolve (environment : Assoc String String) (entries : List (String × Option String)) :
    Assoc String (Option String) :=
  entries.foldl (fun values entry =>
    let look name :=
      match Assoc.find? values name with
      | some value => some value
      | none => (Assoc.find? environment name).map some
    Assoc.set values entry.1 (entry.2.map fun v => String.ofList (expand look (v.length + 1) v.toList))) []

/-- The text of a file without the byte order mark at its front, and with plain line ends. -/
def plainText (text : String) : List Char :=
  match text.toList with
  | '\ufeff' :: cs => Text.unifyNewlines cs
  | cs => Text.unifyNewlines cs

/-- The values that a file of settings gives. A name without a value has none. -/
def parse (environment : Assoc String String) (text : String) : Assoc String (Option String) :=
  resolve environment (readEntries (text.length + 1) (plainText text))

end Attribution.EnvFile
