import ConfigExpr.CommandLine.Arguments
import ConfigExpr.Evaluator.Eval
import ConfigExpr.Standard.Functions

/-!
What the command line does: it evaluates a document from a file or from its input, perhaps against a
document of parameters, or lists the functions. Its surroundings are what files hold, its input and
the current time.
-/
namespace ConfigExpr.CommandLine

structure Surroundings where
  /-- The text of a file, or why it cannot be read. -/
  readFile : String → Except String String
  input : Except String String
  now : Int

structure Outcome where
  status : Nat
  output : String
  errors : String
deriving DecidableEq, Repr

namespace Outcome

def success (text : String) : Outcome :=
  ⟨0, text ++ "\n", ""⟩

def failure (reason : String) : Outcome :=
  ⟨1, "", "Error: " ++ reason ++ "\n"⟩

/-- A crash, without the place in the program at which it happens. -/
def crash (reason : String) : Outcome :=
  ⟨101, "", reason ++ "\n"⟩

def ofError : EvalError → Outcome
  | .functionFailure _ (.crash _ reason) => crash reason
  | e => failure e.message

/-- A fault of usage, for an output that is no terminal. -/
def usage (fault : UsageFault) : Outcome :=
  ⟨2, "", Terminal.visible fault.message⟩

end Outcome

def fileDocument (s : Surroundings) (name : String) : Except String Json :=
  match s.readFile name with
  | .error reason => .error ("reading file '" ++ name ++ "': " ++ reason)
  | .ok text =>
    match Json.parse text with
    | .ok document => .ok document
    | .error fault => .error ("parsing JSON in '" ++ name ++ "': " ++ fault.message)

def inputDocument (s : Surroundings) : Except String Json :=
  match s.input with
  | .error reason => .error ("reading expression from stdin: " ++ reason)
  | .ok text =>
    match Json.parse text with
    | .ok document => .ok document
    | .error fault => .error ("parsing expression JSON: " ++ fault.message)

/-- The evaluator that flags ask for: all that they allow is allowed before what they deny is
denied. -/
def evaluator (e : Evaluation) (now : Int) : Evaluator :=
  let config : Config :=
    { Config.standard now with
      maxDepth := e.maxDepth.getD 100
      offset := e.timezone.getD 0 }
  let start := Evaluator.new config Standard.catalogue.hostFunctions
  e.deny.foldl Evaluator.deny (e.allow.foldl Evaluator.allow start)

def pinnedTime (e : Evaluation) (s : Surroundings) : Except String Int :=
  match e.now with
  | none => .ok s.now
  | some now =>
    if Calendar.isSupportedInstant now then .ok now
    else .error ("timestamp " ++ Json.integerText now ++ " is out of range")

/-- The evaluator that is asked for, the document to evaluate and the parameters. -/
def inputs (e : Evaluation) (s : Surroundings) : Except String (Evaluator × Json × Json) := do
  let now ← pinnedTime e s
  let tree ← match e.file with
    | some name => fileDocument s name
    | none => inputDocument s
  let params ← match e.params with
    | some name => fileDocument s name
    | none => pure .null
  return (evaluator e now, tree, params)

def evaluate (e : Evaluation) (s : Surroundings) : Outcome :=
  match inputs e s with
  | .error reason => .failure reason
  | .ok (evaluator, tree, params) =>
    match evaluator.run tree params with
    | .error failure => .ofError failure
    | .ok v => .success (if e.pretty then v.toJson.indented 0 else v.compact)

def allowedMark (name : String) : String :=
  if Allowlist.standard.allows name then "*" else " "

def builtinLine (f : Builtin) : String :=
  allowedMark f.name ++ " " ++ f.name ++ "(...)  [internal]\n"

/-- A function by its signature, with its documentation on a line of its own. -/
def functionLines (f : HostFunction) : String :=
  let purity := if f.isPure then "  [pure]" else ""
  allowedMark f.name ++ " " ++ f.signature.text ++ purity ++ "\n    " ++ f.documentation ++ "\n"

/-- All functions: those of the evaluator and then those of a catalogue by name. -/
def listing (c : Catalogue) : String :=
  String.join (Builtin.all.map builtinLine) ++
    String.join ((c.names.filterMap c.find?).map functionLines) ++ "\n" ++
    "* allowed by default; enable others with --allow NAME\n" ++
    "[pure] results depend only on the arguments"

def run (args : List String) (s : Surroundings) : Outcome :=
  match parse args with
  | .error fault => .usage fault
  | .ok .about => .success UsageFault.purpose
  | .ok .functions => .success (listing Standard.catalogue)
  | .ok (.evaluate e) => evaluate e s

end ConfigExpr.CommandLine
