import SearchTelemetry.CommandLine.Grammar
/-!
# CommandLine.Reader — command lines, word by word

The words of a level are read up to the name of a command, which begins a level of its own.  A value is looked at only when
the next word has found its meaning: of two faults in a line the one that is met first in this order is reported.  Behind
a word `--` every word is an operand.
-/
namespace SearchTelemetry
namespace CommandLine

/-- The last argument, which is not yet among the given ones. -/
inductive Pending where
  | nothing
  /-- An option that has no value yet. -/
  | awaiting (choice : Choice)
  /-- A value for an option or an operand. -/
  | value (name : String) (kind : Kind) (word : String)
deriving DecidableEq, Repr

/-- The arguments of a level, as far as its words are read. -/
structure Progress where
  given : List (String × Argument)
  pending : Pending
  /-- How many operands there are so far. -/
  operands : Nat
deriving DecidableEq, Repr

namespace Progress

/-- No word read. -/
def start : Progress :=
  ⟨[], .nothing, 0⟩

/-- Takes the pending argument among the given ones. -/
def settle (p : Progress) : Except Refusal Progress :=
  match p.pending with
  | .nothing => .ok p
  | .awaiting _ => .error .missingValue
  | .value name kind word =>
    if (p.given.lookup name).isSome then .error .twice
    else
      match kind.read? word with
      | some a => .ok ⟨p.given ++ [(name, a)], .nothing, p.operands⟩
      | none => .error .badValue

/-- Settles what is pending, and makes a value pending. -/
def await (p : Progress) (next : Pending) : Except Refusal Progress :=
  p.settle.map fun p => { p with pending := next }

/-- Settles what is pending and a value at once. -/
def take (p : Progress) (c : Choice) (word : String) : Except Refusal Progress :=
  (p.await (.value c.name c.kind word)).bind settle

/-- Settles what is pending and acts on a flag. -/
def raise (p : Progress) (f : Flag) : Except Refusal Progress :=
  p.settle.bind fun p =>
    match f.effect with
    | .set =>
      if (p.given.lookup f.name).isSome then .error .twice
      else .ok { p with given := p.given ++ [(f.name, .set)] }
    | .help => .error .helpAsked
    | .version => .error .versionAsked

end Progress

/-- Whether the digits behind a minus sign are a number: digits with at most one point, not in front, and at most one
exponent, neither in front nor behind. -/
def isNumber (cs : List Char) : Bool :=
  let mantissa := cs.takeWhile (· ≠ 'e')
  let exponent := cs.drop mantissa.length
  mantissa.all (fun c => Numeral.isDigit c || c = '.') && mantissa.count '.' ≤ 1 && mantissa.head? ≠ some '.' &&
    (exponent.isEmpty || (!mantissa.isEmpty && 2 ≤ exponent.length && (exponent.drop 1).all Numeral.isDigit))

namespace Level

/-- Whether a number below zero is a value in this place. -/
def takesNegative (l : Level) (p : Progress) : Bool :=
  (match p.pending with
    | .awaiting c => c.kind.mayBeNegative
    | _ => false) || (l.operands[p.operands]?).any (·.kind.mayBeNegative)

/-- Reads a word that began with two dashes, without them. -/
def readLong (l : Level) (word : List Char) (p : Progress) : Except Refusal Progress :=
  let name := String.ofList (word.takeWhile (· ≠ '='))
  let behind := word.dropWhile (· ≠ '=')
  match l.flags.find? (·.name = name) with
  | some f => if behind.isEmpty then p.raise f else .error .valueOfFlag
  | none =>
    match l.choices.find? (·.name = name) with
    | some c => if behind.isEmpty then p.await (.awaiting c) else p.take c (String.ofList (behind.drop 1))
    | none => .error .unknown

/-- The value behind the letter of an option, an equals sign between them left out. -/
def attached : List Char → String
  | '=' :: cs => String.ofList cs
  | cs => String.ofList cs

/-- Reads the letters of a word that began with one dash, without it. -/
def readLetters (l : Level) : List Char → Progress → Except Refusal Progress
  | [], p => .ok p
  | c :: cs, p =>
    match l.flags.find? (·.letter = some c) with
    | some f => (p.raise f).bind (readLetters l cs)
    | none =>
      match l.choices.find? (·.letter = some c) with
      | some choice => if cs.isEmpty then p.await (.awaiting choice) else p.take choice (attached cs)
      | none => .error .unknown

/-- Reads an operand.  `commands` are the names of the commands of the level. -/
def readOperand (l : Level) (commands : List String) (trailing : Bool) (word : String) (p : Progress) :
    Except Refusal Progress :=
  match l.operands[p.operands]? with
  | some o => (p.await (.value o.name o.kind word)).map fun p => { p with operands := p.operands + 1 }
  | none =>
    if commands.isEmpty || !l.operands.isEmpty || (trailing && commands.contains word) then .error .unknown
    else .error .unknownCommand

/-- Reads a word that is no command. -/
def readWord (l : Level) (commands : List String) (word : String) (p : Progress) : Except Refusal Progress :=
  let value : Except Refusal Progress :=
    match p.pending with
    | .awaiting c => .ok { p with pending := .value c.name c.kind word }
    | _ => l.readOperand commands false word p
  match word.toList with
  | '-' :: '-' :: cs => l.readLong cs p
  | ['-'] => value
  | '-' :: cs => if isNumber cs && l.takesNegative p then value else l.readLetters cs p
  | _ => value

/-- Reads words that are all operands. -/
def readOperands (l : Level) (commands : List String) : List String → Progress → Except Refusal Progress
  | [], p => .ok p
  | w :: ws, p => (l.readOperand commands true w p).bind (readOperands l commands ws)

/-- Whether an option still has no value. -/
def isAwaiting (p : Progress) : Bool :=
  match p.pending with
  | .awaiting _ => true
  | _ => false

/-- Reads the words of a level up to the name of a command, which is returned with the words behind it. -/
def read (l : Level) (commands : List String) :
    List String → Progress → Except Refusal (Progress × Option (String × List String))
  | [], p => .ok (p, none)
  | w :: ws, p =>
    if commands.contains w && !isAwaiting p then .ok (p, some (w, ws))
    else if w = "--" then (l.readOperands commands ws p).map fun p => (p, none)
    else (l.readWord commands w p).bind (read l commands ws)

/-- Whether every operand is there. -/
def checkOperands (l : Level) (given : List (String × Argument)) : Except Refusal Unit :=
  if l.operands.all fun o => (given.lookup o.name).isSome then .ok () else .error .missingOperand

/-- Reads all words of a level without commands. -/
def readAll (l : Level) (words : List String) : Except Refusal (List (String × Argument)) :=
  (l.read [] words .start).bind fun (p, _) =>
    p.settle.bind fun p => (l.checkOperands p.given).map fun _ => p.given

end Level

/-- The arguments of a program: its own, and the command with the arguments of that. -/
structure Arguments where
  own : List (String × Argument)
  command : Option (String × List (String × Argument))
deriving DecidableEq, Repr

namespace Grammar

/-- The name of the command that shows help. -/
def helpCommand : String := "help"

/-- The names of the commands. -/
def commandNames (g : Grammar) : List String :=
  if g.commands.isEmpty then [] else g.commands.map (·.name) ++ [helpCommand]

/-- What `help` says to the words behind it: at most the name of one command, which has no commands itself. -/
def helpRefusal (g : Grammar) : List String → Refusal
  | [] => .helpAsked
  | [name] => if g.commandNames.contains name then .helpAsked else .unknownCommand
  | _ => .unknownCommand

/-- Reads the command of a line and the words behind it. -/
def readCommand (g : Grammar) (name : String) (words : List String) : Except Refusal (List (String × Argument)) :=
  match g.commands.find? (·.name = name) with
  | some l => l.readAll words
  | none => .error (g.helpRefusal words)

/-- Reads a command line. -/
def read (g : Grammar) (words : List String) : Except Refusal Arguments := do
  let (p, command) ← g.root.read g.commandNames words .start
  match command with
  | some (name, behind) =>
    let arguments ← g.readCommand name behind
    let p ← p.settle
    return ⟨p.given, some (name, arguments)⟩
  | none =>
    let p ← p.settle
    if g.needsCommand then throw (if p.given.isEmpty then .nothing else .missingCommand)
    g.root.checkOperands p.given
    return ⟨p.given, none⟩

end Grammar

/-! ## Typed arguments -/

/-- The text that was given under a name. -/
def text? (given : List (String × Argument)) (name : String) : Option String :=
  match given.lookup name with
  | some (.text s) => some s
  | _ => none

/-- The port that was given under a name. -/
def port? (given : List (String × Argument)) (name : String) : Option UInt16 :=
  match given.lookup name with
  | some (.port p) => some p
  | _ => none

/-- The integer that was given under a name. -/
def integer? (given : List (String × Argument)) (name : String) : Option Int64 :=
  match given.lookup name with
  | some (.integer i) => some i
  | _ => none

/-- The address that was given under a name. -/
def ip? (given : List (String × Argument)) (name : String) : Option IpAddress :=
  match given.lookup name with
  | some (.ip x) => some x
  | _ => none

/-- Whether a flag was set. -/
def isSet (given : List (String × Argument)) (name : String) : Bool :=
  (given.lookup name).isSome

end CommandLine
end SearchTelemetry
