import SearchTelemetry.Net.IpAddress
/-!
# CommandLine.Grammar — what the words of a command line may be

A program takes flags, which stand alone, options, which take a value, and operands, which are known by their place.  It
may have commands, each with flags, options and operands of its own; `help` is then a command too.
-/
namespace SearchTelemetry
namespace CommandLine

/-- What a value must be. -/
inductive Kind where
  | text
  | port
  | integer
  | ip
deriving DecidableEq, Repr

/-- What was given on a command line. -/
inductive Argument where
  | text (s : String)
  | port (p : UInt16)
  | integer (i : Int64)
  | ip (x : IpAddress)
  /-- A flag that was set. -/
  | set
deriving DecidableEq, Repr

namespace Kind

/-- The value that a word is. -/
def read? : Kind → String → Option Argument
  | text, s => some (.text s)
  | port, s =>
    ((Numeral.int64? s.toList).filter fun i => 0 ≤ i && i < 65536).map fun i => .port (UInt16.ofNat i.toInt.toNat)
  | integer, s => (Numeral.int64? s.toList).map .integer
  | ip, s => (IpAddress.read? s).map .ip

/-- Whether a word that is a number below zero is a value and no flag. -/
def mayBeNegative (k : Kind) : Bool :=
  k = integer

end Kind

/-- What a flag does. -/
inductive Effect where
  | set
  | help
  | version
deriving DecidableEq, Repr

/-- A word that stands alone. -/
structure Flag where
  name : String
  letter : Option Char
  effect : Effect
deriving DecidableEq, Repr

/-- A word that takes a value. -/
structure Choice where
  name : String
  letter : Option Char
  kind : Kind
deriving DecidableEq, Repr

/-- A value known by its place. -/
structure Operand where
  name : String
  kind : Kind
deriving DecidableEq, Repr

/-- What a program or one of its commands takes. -/
structure Level where
  name : String
  flags : List Flag
  choices : List Choice
  operands : List Operand
deriving DecidableEq, Repr

/-- What a program takes. -/
structure Grammar where
  root : Level
  commands : List Level
  /-- Whether a command must be given. -/
  needsCommand : Bool
deriving DecidableEq, Repr

/-- The flag that asks for help. -/
def helpFlag : Flag :=
  ⟨"help", some 'h', .help⟩

/-- The flag that asks for the version. -/
def versionFlag : Flag :=
  ⟨"version", some 'V', .version⟩

/-- Why a command line leads to no run: what is wrong with it, or what it asks for instead. -/
inductive Refusal where
  /-- A value is not of its kind. -/
  | badValue
  /-- A word has no meaning in its place. -/
  | unknown
  /-- An operand is missing. -/
  | missingOperand
  /-- A word stands where only a command may stand, and is none. -/
  | unknownCommand
  /-- An option has no value. -/
  | missingValue
  /-- A flag has a value. -/
  | valueOfFlag
  /-- A flag or an option is given twice. -/
  | twice
  /-- No command is given. -/
  | missingCommand
  /-- Nothing at all is given, though a command must be. -/
  | nothing
  | helpAsked
  | versionAsked
deriving DecidableEq, Repr

end CommandLine
end SearchTelemetry
