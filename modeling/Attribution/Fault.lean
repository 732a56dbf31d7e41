import Attribution.Text.Utf8

namespace Attribution

inductive Fault where
  /-- A socket was asked for under an empty name. -/
  | emptyTarget
  /-- A call was made on a channel that is closed. -/
  | closedChannel
  /-- A reply is not in the wire format. -/
  | undecodable
  /-- A deadline is too long for a number of seconds. -/
  | endlessTimeout
  /-- A path holds the null character. -/
  | nullInPath
  /-- A text file is not UTF-8. -/
  | notUtf8 (error : Utf8.DecodeError)
  /-- A name holds surrogates where only characters can be. -/
  | notEncodable (error : Utf8.EncodeError)
  /-- The name of a directory entry looks like a number and is none. -/
  | notInteger (name : String)
  /-- The name of a directory entry is a number with too many digits. -/
  | integerTooLong (digits : Nat)
  /-- A number has too many digits to be written. -/
  | unwritable
  | unknownType (name : String)
  | unknownState (name : String)
  /-- The operation belongs to one runtime and none was chosen. -/
  | notImplemented
  deriving DecidableEq, Repr

def Fault.message : Fault → String
  | .emptyTarget => "socket path/target is empty"
  | .closedChannel => "Cannot invoke RPC on closed channel!"
  | .undecodable => ""
  | .endlessTimeout => "int too large to convert to float"
  | .nullInPath => "embedded null byte"
  | .notUtf8 e => e.message
  | .notEncodable e => e.message
  | .notInteger name =>
    "invalid literal for int() with base 10: " ++ String.ofList (name.quoted.toList.take 200)
  | .integerTooLong digits =>
    "Exceeds the limit (4300 digits) for integer string conversion: value has " ++
      toString digits ++ " digits; use sys.set_int_max_str_digits() to increase the limit"
  | .unwritable =>
    "Exceeds the limit (4300 digits) for integer string conversion; " ++
      "use sys.set_int_max_str_digits() to increase the limit"
  | .unknownType name => name.quoted ++ " is not a valid ContainerType"
  | .unknownState name => name.quoted ++ " is not a valid LookupState"
  | .notImplemented => ""

end Attribution
