import Attribution.Text.Cut
import Attribution.Text.Integer
import Attribution.Text.Quoted

namespace Attribution

inductive Command where
  | scan (pids : List Int) (all : Bool)
  | help
  /-- The arguments are in error for the given reason. -/
  | misuse (reason : String)
  deriving DecidableEq, Repr

namespace CommandLine

def usage : String := "usage: ctrident [-h] [--all] [pids ...]"

def helpLines : List String :=
  [usage, "", "Attribute processes to containerd containers.", "", "positional arguments:",
    "  pids        process ids to resolve", "", "options:",
    "  -h, --help  show this help message and exit",
    "  --all       resolve every process under the proc root"]

/-- What is written when the arguments are in error. -/
def misuseLines (reason : String) : List String := [usage, "ctrident: error: " ++ reason]

inductive Flag where
  | help
  | all
  deriving DecidableEq, Repr

def Flag.label : Flag → String
  | .help => "-h/--help"
  | .all => "--all"

def shortHelp : String := "-h"

def flagNames : List (String × Flag) := [(shortHelp, .help), ("--help", .help), ("--all", .all)]

/-- An argument as it is understood on its own. -/
inductive Word where
  | value (text : String)
  /-- The two dashes behind which there are no flags. -/
  | divider
  /-- A flag, whether it is the short one, and the part of the argument behind its name. -/
  | flag (flag : Flag) (short : Bool) (tail : Option (List Char))
  | unknown (text : String)
  deriving DecidableEq, Repr

def find? (name : List Char) : Option Flag :=
  (flagNames.find? fun f => f.1.toList == name).map (·.2)

/-- The flag of an argument, shortened or with a tail; the names that it may stand for if there is
more than one. -/
def candidates (arg : List Char) : List (String × Flag × Option (List Char)) :=
  if "--".toList.isPrefixOf arg then
    let (name, tail) := Text.cutFirst '=' arg
    (flagNames.filter fun f => name.isPrefixOf f.1.toList).map fun f => (f.1, f.2, tail)
  else
    flagNames.filterMap fun f =>
      if f.1.toList == arg.take 2 then some (f.1, f.2, some (arg.drop 2)) else none

/-- The text without one line feed at its end. -/
def dropLineFeed (cs : List Char) : List Char :=
  if cs.getLast? = some '\n' then cs.dropLast else cs

def isDigits (cs : List Char) : Bool := !cs.isEmpty && cs.all Text.isDecimal

/-- Whether an argument with a dash is a number below zero, with a fraction perhaps. -/
def isNegativeNumber : List Char → Bool
  | '-' :: cs =>
    let body := dropLineFeed cs
    isDigits body ||
      match Text.cutFirst '.' body with
      | (whole, some fraction) => whole.all Text.isDecimal && isDigits fraction
      | _ => false
  | _ => false

/-- The word that an argument before the divider is. -/
def classify (arg : String) : Except String Word :=
  let cs := arg.toList
  if cs.head? ≠ some '-' then .ok (.value arg)
  else
    match find? cs with
    | some flag => .ok (.flag flag (arg == shortHelp) none)
    | none =>
      if cs.length = 1 then .ok (.value arg)
      else
        match Text.cutFirst '=' cs with
        | (name, some tail) =>
          match find? name with
          | some flag => .ok (.flag flag (name == shortHelp.toList) (some tail))
          | none => classifyRest arg cs
        | _ => classifyRest arg cs
where
  /-- The word of an argument that is not written like any flag in full. -/
  classifyRest (arg : String) (cs : List Char) : Except String Word :=
    match candidates cs with
    | [(name, flag, tail)] => .ok (.flag flag (name == shortHelp) tail)
    | [] =>
      if isNegativeNumber cs || cs.contains ' ' then .ok (.value arg) else .ok (.unknown arg)
    | several =>
      .error ("ambiguous option: " ++ arg ++ " could match " ++
        ", ".intercalate (several.map (·.1)))

def words : List String → Except String (List Word)
  | [] => .ok []
  | "--" :: args => .ok (.divider :: args.map .value)
  | arg :: args => do
    let word ← classify arg
    let rest ← words args
    return word :: rest

def ignored (flag : Flag) (tail : List Char) : String :=
  "argument " ++ flag.label ++ ": ignored explicit argument " ++ (String.ofList tail).quoted

/-- What is wrong with the tail of a flag. Behind a short flag further short ones may follow at once,
and nothing else. -/
def tailFault? (flag : Flag) (short : Bool) : List Char → Option String
  | [] => some (ignored flag [])
  | c :: cs =>
    match if short then find? ['-', c] else none, cs with
    | none, _ => some (ignored flag (c :: cs))
    | some _, [] => none
    | some next, rest => tailFault? next true rest

/-- The arguments read so far. -/
structure Parsed where
  /-- The numbers, once a run of values has been taken for them. -/
  pids : Option (List Int) := none
  all : Bool := false
  extras : List String := []
  deriving Repr

def readPids (texts : List String) : Except String (List Int) :=
  texts.mapM fun s =>
    match Text.integer? s.toList with
    | some n => .ok n
    | none => .error ("argument pids: invalid int value: " ++ s.quoted)

def finish (p : Parsed) : Command :=
  if p.extras.isEmpty then .scan (p.pids.getD []) p.all
  else .misuse ("unrecognized arguments: " ++ " ".intercalate p.extras)

/-- The texts of the values at the front, and the words behind them. -/
def takeValues : List Word → List String × List Word
  | .value s :: rest => let (texts, rest) := takeValues rest; (s :: texts, rest)
  | .divider :: rest => let (texts, rest) := takeValues rest; ("--" :: texts, rest)
  | rest => ([], rest)

/-- Reads the words in order. The first run of values are the numbers; values after it have no use.
The number bounds the steps. -/
def interpret : Nat → Parsed → List Word → Command
  | 0, p, _ => finish p
  | _ + 1, p, [] => finish p
  | steps + 1, p, .flag flag short tail :: rest =>
    match tail.bind (tailFault? flag short) with
    | some reason => .misuse reason
    | none =>
      match flag with
      | .help => .help
      | .all => interpret steps { p with all := true } rest
  | steps + 1, p, .unknown s :: rest => interpret steps { p with extras := p.extras ++ [s] } rest
  | steps + 1, p, ws =>
    let (texts, rest) := takeValues ws
    match p.pids with
    | some _ => interpret steps { p with extras := p.extras ++ texts } rest
    | none =>
      match readPids (texts.erase "--") with
      | .error reason => .misuse reason
      | .ok pids => interpret steps { p with pids := some pids } rest

/-- The command that arguments give. -/
def parse (args : List String) : Command :=
  match words args with
  | .error reason => .misuse reason
  | .ok ws => interpret (ws.length + 1) {} ws

end CommandLine
end Attribution
