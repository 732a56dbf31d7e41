import Attribution.Log.Line

namespace Attribution.Log

/-- The name of the program, above the names of its components. -/
def rootName : String := "ctrident"

/-- The level in force where none is set. -/
def outerLevel : Int := warningLevel

def notSet : Int := 0

def names : List (String × Int) :=
  [("CRITICAL", 50), ("FATAL", 50), ("ERROR", errorLevel), ("WARN", warningLevel),
    ("WARNING", warningLevel), ("INFO", infoLevel), ("DEBUG", debugLevel), ("NOTSET", notSet)]

/-- Capital letters, as far as the names of levels need them: besides the ASCII letters two others
have a capital form in ASCII. -/
def capital (c : Char) : Char :=
  if c = 'ı' then 'I' else if c = 'ſ' then 'S' else c.toUpper

/-- The level of a name in either case; an unknown name is taken for the common level. -/
def levelOfName (name : String) : Int :=
  let key := name.map capital
  match names.find? fun n => n.1 == key with
  | some n => n.2
  | none => infoLevel

/-- The level in force when the program's own is set. -/
def effective (own : Int) : Int := if own = notSet then outerLevel else own

def levelName (level : Int) : String :=
  if level = 50 then "CRITICAL"
  else if level = errorLevel then "ERROR"
  else if level = warningLevel then "WARNING"
  else if level = infoLevel then "INFO"
  else if level = debugLevel then "DEBUG"
  else if level = notSet then "NOTSET"
  else "Level " ++ toString level

def loggerName (component : String) : String :=
  if component = "" then rootName else rootName ++ "." ++ component

/-- Whether a component belongs to the program's log. Names are divided at dots from the right, an
empty part together with the dot before it, so that an odd number of dots at the front cuts the
component off. -/
def isInside (component : String) : Bool :=
  (component.toList.takeWhile (· = '.')).length % 2 == 0

/-- Whether a line is written when the program's own level is the given one. -/
def passes (own : Int) (line : LogLine) : Bool :=
  isInside line.component && 0 < line.level && effective own ≤ line.level

/-- The time of an event as the log writes it. -/
def clock (timestamp : String) : String :=
  String.ofList ((timestamp.toList.filter (· != 'Z')).map fun c => if c = 'T' then ' ' else c)

/-- A line as it is written, with the time in front. -/
def format (complaint : List UInt8 → String) (time : String) (line : LogLine) : String :=
  let level := String.ofList ((levelName line.level).toList.rightpad 5 ' ')
  "[" ++ time ++ "] [" ++ level ++ "] [" ++ loggerName line.component ++ "] " ++
    line.message complaint

end Attribution.Log
