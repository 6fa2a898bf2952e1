import ConfigExpr.CommandLine.Offset
import ConfigExpr.CommandLine.Terminal

/-!
The arguments of the command line. The first names a command. Of the command that evaluates,
options come in a long form, whose value may be attached with an equals sign, and some in a short
form, where letters may be joined; what is no option is the name of a file. After `--` nothing is an
option. The first fault from the left is reported, where an option whose value is an argument of its
own is looked into only when the next option or file has been recognized.
-/
namespace ConfigExpr.CommandLine

inductive Flag where
  | params
  | allow
  | deny
  | maxDepth
  | timezone
  | now
  | pretty
  | help
deriving DecidableEq, Repr

namespace Flag

def all : List Flag :=
  [.params, .allow, .deny, .maxDepth, .timezone, .now, .pretty, .help]

def name : Flag → String
  | .params => "params"
  | .allow => "allow"
  | .deny => "deny"
  | .maxDepth => "max-depth"
  | .timezone => "timezone"
  | .now => "now"
  | .pretty => "pretty"
  | .help => "help"

def letter? : Flag → Option Char
  | .params => some 'P'
  | .pretty => some 'p'
  | .help => some 'h'
  | _ => none

/-- The word for the value in messages; an option without one is a switch. -/
def valueName? : Flag → Option String
  | .params => some "PARAMS"
  | .allow => some "NAME"
  | .deny => some "NAME"
  | .maxDepth => some "MAX_DEPTH"
  | .timezone => some "TIMEZONE"
  | .now => some "NOW"
  | .pretty | .help => none

def isRepeatable : Flag → Bool
  | .allow | .deny => true
  | _ => false

def shown (flag : Flag) : String :=
  match flag.valueName? with
  | some value => "--" ++ flag.name ++ " <" ++ value ++ ">"
  | none => "--" ++ flag.name

def ofName? (name : String) : Option Flag :=
  all.find? fun flag => flag.name == name

def ofLetter? (c : Char) : Option Flag :=
  all.find? fun flag => flag.letter? == some c

end Flag

inductive UsageFault where
  | missingCommand
  | unknownCommand (name : String)
  | unexpectedArgument (argument : String)
  | missingValue (flag : Flag)
  | repeatedOption (flag : Flag)
  | invalidValue (flag : Flag) (value reason : String)
  | unexpectedValue (shown value : String)
deriving DecidableEq, Repr

namespace UsageFault
open Terminal (highlighted)

/-- What the program is for, which is also said when no command is given. -/
def purpose : String :=
  "Evaluate JSON configuration expressions in a restricted sandbox"

/-- What is wrong. Names and values are set off from the words around them. -/
def headline : UsageFault → String
  | .missingCommand => purpose
  | .unknownCommand name => "error: unrecognized subcommand '" ++ highlighted name ++ "'"
  | .unexpectedArgument argument =>
    "error: unexpected argument '" ++ highlighted argument ++ "' found"
  | .missingValue flag =>
    "error: a value is required for '" ++ highlighted flag.shown ++ "' but none was supplied"
  | .repeatedOption flag =>
    "error: the argument '" ++ highlighted flag.shown ++ "' cannot be used multiple times"
  | .invalidValue flag value reason =>
    "error: invalid value '" ++ highlighted value ++ "' for '" ++ highlighted flag.shown ++ "': " ++
      reason
  | .unexpectedValue shown value =>
    "error: unexpected value '" ++ highlighted value ++ "' for '" ++ highlighted shown ++
      "' found; no more were expected"

/-- The headline and where to find help, as a terminal takes it. -/
def message (fault : UsageFault) : String :=
  fault.headline ++ "\n\nFor more information, try '" ++ highlighted "--help" ++ "'.\n"

end UsageFault

structure Evaluation where
  file : Option String
  params : Option String
  allow : List String
  deny : List String
  maxDepth : Option Nat
  timezone : Option Int
  now : Option Int
  pretty : Bool
deriving DecidableEq, Repr

inductive Command where
  | evaluate (e : Evaluation)
  | functions
  | about
deriving DecidableEq, Repr

inductive Stop where
  | fault (f : UsageFault)
  | help
deriving DecidableEq, Repr

abbrev Reading := Except Stop

def refuse {α : Type} (f : UsageFault) : Reading α :=
  .error (.fault f)

namespace Evaluation

def empty : Evaluation :=
  ⟨none, none, [], [], none, none, none, false⟩

def isGiven (e : Evaluation) : Flag → Bool
  | .params => e.params.isSome
  | .maxDepth => e.maxDepth.isSome
  | .timezone => e.timezone.isSome
  | .now => e.now.isSome
  | .pretty => e.pretty
  | .help => false
  | .allow => !e.allow.isEmpty
  | .deny => !e.deny.isEmpty

def numeral (flag : Flag) (value : String) (read : List Char → Except Numeral.Fault Int) :
    Reading Int :=
  match read value.toList with
  | .ok n => .ok n
  | .error fault => refuse (.invalidValue flag value fault.message)

def assign (e : Evaluation) (flag : Flag) (value : String) : Reading Evaluation :=
  match flag with
  | .params => .ok { e with params := some value }
  | .allow => .ok { e with allow := e.allow ++ [value] }
  | .deny => .ok { e with deny := e.deny ++ [value] }
  | .maxDepth => do
    let n ← numeral flag value Numeral.readUnsigned64
    return { e with maxDepth := some n.toNat }
  | .timezone =>
    match parseOffset value.toList with
    | .ok seconds => .ok { e with timezone := some seconds }
    | .error fault => refuse (.invalidValue flag value (fault.message value))
  | .now => do
    let n ← numeral flag value Numeral.read64
    return { e with now := some n }
  | .pretty => .ok { e with pretty := true }
  | .help => .error .help

/-- Refuses an option that is given again, unless it may be repeated. -/
def set (e : Evaluation) (flag : Flag) (value : String) : Reading Evaluation :=
  if e.isGiven flag && !flag.isRepeatable then refuse (.repeatedOption flag)
  else e.assign flag value

end Evaluation

inductive ArgumentForm where
  | escape
  | long (name : String) (value : Option String)
  | short (letters : List Char)
  | plain

def form (argument : String) : ArgumentForm :=
  match argument.toList with
  | ['-', '-'] => .escape
  | '-' :: '-' :: rest =>
    let name := rest.takeWhile (· != '=')
    match rest.dropWhile (· != '=') with
    | [] => .long (String.ofList name) none
    | _ :: value => .long (String.ofList name) (some (String.ofList value))
  | '-' :: c :: rest => .short (c :: rest)
  | _ => .plain

/-- An option that was named in an argument of its own. Its value is the next argument, and it
takes effect only when an argument after that needs no more of it. -/
inductive Pending where
  | waiting (flag : Flag)
  | valued (flag : Flag) (value : String)
deriving DecidableEq, Repr

def settle (e : Evaluation) : Option Pending → Reading Evaluation
  | none => .ok e
  | some (.waiting flag) => refuse (.missingValue flag)
  | some (.valued flag value) => e.set flag value

def settleAndSet (e : Evaluation) (pending : Option Pending) (flag : Flag) (value : String) :
    Reading Evaluation := do
  let e ← settle e pending
  e.set flag value

/-- Joined short options; the last may need the next argument for its value. -/
def readLetters (e : Evaluation) (pending : Option Pending) :
    List Char → Reading (Evaluation × Option Pending)
  | [] => .ok (e, pending)
  | c :: rest =>
    match Flag.ofLetter? c with
    | none => refuse (.unexpectedArgument (String.ofList ['-', c]))
    | some flag =>
      if flag.valueName?.isNone then do
        let e ← settleAndSet e pending flag ""
        readLetters e none rest
      else
        match rest with
        | [] => (settle e pending).map fun e => (e, some (.waiting flag))
        | '=' :: value =>
          (settleAndSet e pending flag (String.ofList value)).map fun e => (e, none)
        | value => (settleAndSet e pending flag (String.ofList value)).map fun e => (e, none)

/-- A long option. One that takes no value refuses a value before a pending option takes effect. -/
def readLong (e : Evaluation) (pending : Option Pending) (name : String) (value : Option String) :
    Reading (Evaluation × Option Pending) :=
  match Flag.ofName? name with
  | none => refuse (.unexpectedArgument ("--" ++ name))
  | some flag =>
    match flag.valueName?.isSome, value with
    | false, some value => refuse (.unexpectedValue flag.shown value)
    | false, none => (settleAndSet e pending flag "").map fun e => (e, none)
    | true, some value => (settleAndSet e pending flag value).map fun e => (e, none)
    | true, none => (settle e pending).map fun e => (e, some (.waiting flag))

/-- The name of the file. A second one is refused before a pending option takes effect. -/
def readFile (e : Evaluation) (pending : Option Pending) (name : String) : Reading Evaluation :=
  if e.file.isSome then refuse (.unexpectedArgument name)
  else (settle e pending).map fun e => { e with file := some name }

/-- Everything after `--` is the name of a file. -/
def readFiles (e : Evaluation) (pending : Option Pending) : List String → Reading Evaluation
  | [] => settle e pending
  | name :: rest => do
    let e ← readFile e pending name
    readFiles e none rest

/-- An argument that is no option: the value of an option that waits for one, or else the file. -/
def readPlain (e : Evaluation) (pending : Option Pending) (argument : String) :
    Reading (Evaluation × Option Pending) :=
  match pending with
  | some (.waiting flag) => .ok (e, some (.valued flag argument))
  | _ => (readFile e pending argument).map fun e => (e, none)

def readEvaluation (e : Evaluation) (pending : Option Pending) : List String → Reading Evaluation
  | [] => settle e pending
  | argument :: rest =>
    match form argument with
    | .escape => readFiles e pending rest
    | .long name value => do
      let (e, pending) ← readLong e pending name value
      readEvaluation e pending rest
    | .short letters => do
      let (e, pending) ← readLetters e pending letters
      readEvaluation e pending rest
    | .plain => do
      let (e, pending) ← readPlain e pending argument
      readEvaluation e pending rest

/-- An option where only the given ones are known, by name and letter; each of them asks
for help. -/
def readHelp {α : Type} (known : List (String × Char)) (argument : String) : Reading α :=
  match form argument with
  | .long name value =>
    match known.lookup name, value with
    | some _, some value => refuse (.unexpectedValue ("--" ++ name) value)
    | some _, none => .error .help
    | none, _ => refuse (.unexpectedArgument ("--" ++ name))
  | .short (c :: _) =>
    if known.any fun option => option.2 == c then .error .help
    else refuse (.unexpectedArgument (String.ofList ['-', c]))
  | _ => refuse (.unexpectedArgument argument)

/-- The command that lists functions takes no arguments. -/
def readListing : List String → Reading Command
  | [] | ["--"] => .ok .functions
  | "--" :: argument :: _ => refuse (.unexpectedArgument argument)
  | argument :: _ => readHelp [("help", 'h')] argument

def commandNames : List String :=
  ["evaluate", "functions", "help"]

/-- Help on a command takes its name, and nothing after it. -/
def readTopic : List String → Reading Command
  | [] => .ok .about
  | topic :: rest =>
    if commandNames.contains topic then
      match rest with
      | [] => .ok .about
      | other :: _ => refuse (.unknownCommand other)
    else refuse (.unknownCommand topic)

/-- After `--` no command is taken, not even a known one. -/
def readEscaped : List String → Reading Command
  | [] => refuse .missingCommand
  | name :: _ =>
    if commandNames.contains name then refuse (.unexpectedArgument name)
    else refuse (.unknownCommand name)

def readCommand : List String → Reading Command
  | [] => refuse .missingCommand
  | "evaluate" :: rest => (readEvaluation .empty none rest).map Command.evaluate
  | "functions" :: rest => readListing rest
  | "help" :: rest => readTopic rest
  | argument :: rest =>
    match form argument with
    | .plain => refuse (.unknownCommand argument)
    | .escape => readEscaped rest
    | _ => readHelp [("help", 'h'), ("version", 'V')] argument

def parse (args : List String) : Except UsageFault Command :=
  match readCommand args with
  | .ok command => .ok command
  | .error (.fault f) => .error f
  | .error .help => .ok .about

end ConfigExpr.CommandLine
