namespace Attribution

structure LogLine where
  level : Int
  /-- The name below the program's own, empty for the program itself. -/
  component : String
  text : String
  /-- A specification that cannot be read. What its reader finds wrong with it ends the line. -/
  spoilt : Option (List UInt8) := none
  deriving DecidableEq, Repr

/-- The line as it is told, given the words of the reader of specifications. -/
def LogLine.message (complaint : List UInt8 → String) (line : LogLine) : String :=
  line.text ++ line.spoilt.elim "" complaint

namespace Log

def debugLevel : Int := 10

def infoLevel : Int := 20

def warningLevel : Int := 30

def errorLevel : Int := 40

def debug (component text : String) : LogLine := { level := debugLevel, component, text }

def info (component text : String) : LogLine := { level := infoLevel, component, text }

def warning (component text : String) : LogLine := { level := warningLevel, component, text }

def error (component text : String) : LogLine := { level := errorLevel, component, text }

end Log
end Attribution
