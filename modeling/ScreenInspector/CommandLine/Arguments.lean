/-
  ScreenInspector/CommandLine/Arguments.lean
  ==========================================
  **Reading arguments** against a list of what a command takes.

  An argument is a long option `--name`, a cluster of short options `-abc`, the value of the option
  before it, or the next positional argument.  The value of an option may also follow an equals
  sign, or a short option directly.  After `--` everything is positional.

  A value waits until the next argument is read, and is judged only then: the option must have a
  value, must not come twice unless it may, and the value must be of the wanted kind.  So the first
  fault that is found need not be the first one in the text.
-/
import ScreenInspector.CommandLine.Coordinates

namespace ScreenInspector.CommandLine

/-- Why arguments are refused, or not carried out because they ask for a text. -/
inductive UsageFault where
  /-- The help text is asked for. -/
  | help
  /-- The help text is shown because there are no arguments. -/
  | helpForMissing
  /-- The version is asked for. -/
  | version
  | unknownArgument (argument : String)
  | unknownCommand (word : String)
  | missingCommand
  | missingArgument (name : String)
  /-- An argument that came before, or one that excludes it. -/
  | conflict (name : String)
  /-- A value is missing or not among those that can be chosen. -/
  | badChoice (name value : String)
  /-- A value that cannot be read. -/
  | badValue (name value : String)
  /-- A value for an option that takes none. -/
  | needlessValue (name : String)
deriving DecidableEq, Repr, Inhabited

def UsageFault.message : UsageFault → String
  | .help => "help"
  | .helpForMissing => "a command is wanted"
  | .version => "version"
  | .unknownArgument argument => "unexpected argument " ++ Text.quoted argument
  | .unknownCommand word => "unrecognized command " ++ Text.quoted word
  | .missingCommand => "a command is wanted"
  | .missingArgument name => "missing argument " ++ name
  | .conflict name => name ++ " cannot be used again, or not with what came before"
  | .badChoice name value => "invalid value " ++ Text.quoted value ++ " for " ++ name
  | .badValue name value => "cannot read " ++ Text.quoted value ++ " for " ++ name
  | .needlessValue name => name ++ " takes no value"

/-! ### What a command takes -/

/-- What a value must be. -/
inductive ValueKind where
  | text
  /-- The name of a file, which is not empty. -/
  | path
  | number
  /-- Two finite numbers around a comma. -/
  | pair
  | choice (words : List String)
deriving DecidableEq, Repr, Inhabited

/-- What an option does. -/
inductive OptionAction where
  | help
  | version
  /-- A switch that is set at most once. -/
  | switch
  | count
  /-- An option with a value. -/
  | value (kind : ValueKind) (isRepeatable takesNegative : Bool)
deriving DecidableEq, Repr, Inhabited

structure OptionRule where
  name : String
  short : Option Char := none
  action : OptionAction
deriving DecidableEq, Repr, Inhabited

structure ArgumentRules where
  options : List OptionRule
  /-- Names and kinds of the positional arguments. -/
  positionals : List (String × ValueKind) := []
  /-- The words that end the arguments of the command and begin those of another. -/
  commands : List String := []
deriving Inhabited

/-- The fault of a value that is not of a kind. -/
def ValueKind.fault? (kind : ValueKind) (name value : String) : Option UsageFault :=
  match kind with
  | .text => none
  | .path => if value.isEmpty then some (.badChoice name value) else none
  | .number => if (Number.ofText? value.toList).isSome then none else some (.badValue name value)
  | .pair => if (pairOfText value).toOption.isSome then none else some (.badValue name value)
  | .choice words => if words.contains value then none else some (.badChoice name value)

/-! ### What was given -/

/-- The arguments that were judged, in order; switches have no value. -/
abbrev Given := List (String × Option String)

namespace Given

variable (g : Given)

def count (name : String) : Nat :=
  g.countP fun entry => entry.1 == name

def has (name : String) : Bool :=
  g.any fun entry => entry.1 == name

/-- All values of an argument. -/
def values (name : String) : List String :=
  g.filterMap fun entry => if entry.1 == name then entry.2 else none

def value? (name : String) : Option String :=
  (values g name).head?

end Given

/-- An argument whose value is still to be judged. -/
structure Waiting where
  name : String
  kind : ValueKind
  isRepeatable : Bool
  takesNegative : Bool
  value : Option String
deriving Inhabited

structure Arguments where
  given : Given := []
  waiting : Option Waiting := none
  /-- Whether the next argument may be the value of the waiting one. -/
  wantsValue : Bool := false
  /-- The number of positional arguments read. -/
  position : Nat := 0
  /-- Whether everything from now on is positional. -/
  isTrailing : Bool := false
deriving Inhabited

namespace Arguments

/-- Whether characters are nothing, or an `e` in either case and digits after it. -/
def looksExponent : List Char → Bool
  | [] => true
  | c :: digits => c.toLower == 'e' && !digits.isEmpty && digits.all Char.isDigit

/-- Whether a text looks like a number without a sign: digits, at most one point that is not the
first character, and then possibly an exponent, which is not the first either. -/
def looksNumeric (cs : List Char) : Bool :=
  match cs.dropWhile Char.isDigit with
  | [] => true
  | '.' :: rest =>
    cs.head?.any Char.isDigit && looksExponent (rest.dropWhile Char.isDigit)
  | rest => cs.head?.any Char.isDigit && looksExponent rest

/-- The waiting argument is judged. -/
def settle (s : Arguments) : Except UsageFault Arguments :=
  match s.waiting with
  | none => .ok { s with wantsValue := false }
  | some w =>
    match w.value with
    | none => .error (.badChoice w.name "")
    | some value =>
      if s.given.has w.name && !w.isRepeatable then .error (.conflict w.name)
      else
        match w.kind.fault? w.name value with
        | some fault => .error fault
        | none =>
          .ok { s with given := s.given ++ [(w.name, some value)], waiting := none,
                       wantsValue := false }

/-- A switch or a value was recognized. -/
def accept (s : Arguments) (rule : OptionRule) (attached : Option String) :
    Except UsageFault Arguments := do
  let s ← s.settle
  match rule.action with
  | .help => .error .help
  | .version => .error .version
  | .switch =>
    if s.given.has rule.name then .error (.conflict rule.name)
    else pure { s with given := s.given ++ [(rule.name, none)] }
  | .count => pure { s with given := s.given ++ [(rule.name, none)] }
  | .value kind isRepeatable takesNegative =>
    let s := { s with
      waiting := some ⟨rule.name, kind, isRepeatable, takesNegative, attached⟩, wantsValue := true }
    if attached.isSome then s.settle else pure s

def takesValue (rule : OptionRule) : Bool :=
  match rule.action with
  | .value _ _ _ => true
  | _ => false

/-- A long option, without its hyphens. -/
def long (rules : ArgumentRules) (s : Arguments) (body : List Char) :
    Except UsageFault Arguments :=
  let name := String.ofList (body.takeWhile (· != '='))
  match rules.options.find? fun rule => rule.name == name with
  | none => .error (.unknownArgument ("--" ++ name))
  | some rule =>
    match body.dropWhile (· != '=') with
    | [] => s.accept rule none
    | _ :: value =>
      if takesValue rule then s.accept rule (some (String.ofList value))
      else .error (.needlessValue rule.name)

/-- A cluster of short options; what follows one that takes a value is its value. -/
def short (rules : ArgumentRules) (s : Arguments) : List Char → Except UsageFault Arguments
  | [] => .ok s
  | c :: rest =>
    match rules.options.find? fun rule => rule.short == some c with
    | none => .error (.unknownArgument (String.ofList ['-', c]))
    | some rule =>
      if takesValue rule then
        match rest with
        | [] => s.accept rule none
        | '=' :: value => s.accept rule (some (String.ofList value))
        | value => s.accept rule (some (String.ofList value))
      else do
        let s ← s.accept rule none
        short rules s rest

/-- The value of the waiting option. -/
def giveValue (s : Arguments) (value : String) : Arguments :=
  { s with waiting := s.waiting.map fun w => { w with value := some value }, wantsValue := false }

/-- The fault of a positional argument that is not wanted. -/
def unwanted (rules : ArgumentRules) (s : Arguments) (argument : String) : UsageFault :=
  if rules.commands.isEmpty || (s.isTrailing && rules.commands.contains argument) then
    .unknownArgument argument
  else .unknownCommand argument

/-- The next positional argument. -/
def positional (rules : ArgumentRules) (s : Arguments) (argument : String) :
    Except UsageFault Arguments :=
  match rules.positionals[s.position]? with
  | none => .error (s.unwanted rules argument)
  | some (name, kind) => do
    let s ← s.settle
    pure { s with
      waiting := some ⟨name, kind, false, false, some argument⟩, position := s.position + 1 }

/-- Whether what follows a hyphen is a negative number that the waiting option takes. -/
def takesNegative (s : Arguments) (body : List Char) : Bool :=
  s.wantsValue && looksNumeric body &&
    match s.waiting with
    | some w => w.takesNegative
    | none => false

/-- The next argument. -/
def next (rules : ArgumentRules) (s : Arguments) (argument : String) :
    Except UsageFault Arguments :=
  if s.isTrailing then s.positional rules argument
  else
    let plain := fun _ : Unit =>
      if s.wantsValue then .ok (s.giveValue argument) else s.positional rules argument
    match argument.toList with
    | ['-', '-'] => .ok { s with isTrailing := true }
    | '-' :: '-' :: body => s.long rules body
    | '-' :: c :: body =>
      if s.takesNegative (c :: body) then .ok (s.giveValue argument)
      else s.short rules (c :: body)
    | _ => plain ()

/-- Whether an argument is a command word, which it is not in the place of a value. -/
def isCommand (rules : ArgumentRules) (s : Arguments) (argument : String) : Bool :=
  !s.isTrailing && !s.wantsValue && rules.commands.contains argument

/-- Reads arguments up to the first command word; the last argument may still wait. -/
def read (rules : ArgumentRules) :
    Arguments → List String → Except UsageFault (Arguments × Option (String × List String))
  | s, [] => .ok (s, none)
  | s, argument :: rest =>
    if s.isCommand rules argument then .ok (s, some (argument, rest))
    else do
      let s ← s.next rules argument
      read rules s rest

end Arguments

end ScreenInspector.CommandLine
