import ConfigExpr.CommandLine.Run
import Std.Time.DateTime.Timestamp

/-!
The program: it hands files, standard input and the clock to the command line and prints what comes
of it.
-/
namespace ConfigExpr

/-- Why a file cannot be read, in the words of the system. -/
def ioReason : IO.Error → String
  | .noFileOrDirectory .. => "No such file or directory (os error 2)"
  | .permissionDenied .. => "Permission denied (os error 13)"
  | .inappropriateType .. => "Is a directory (os error 21)"
  | other => toString other

def textOfBytes (bytes : ByteArray) : Except String String :=
  match Utf8.decode? bytes.toList with
  | some text => .ok text
  | none => .error "stream did not contain valid UTF-8"

def readTextFile (name : String) : IO (Except String String) := do
  try
    return textOfBytes (← IO.FS.readBinFile name)
  catch failure =>
    return .error (ioReason failure)

def readInput : IO (Except String String) := do
  try
    return textOfBytes (← (← IO.getStdin).readBinToEnd)
  catch failure =>
    return .error (ioReason failure)

/-- The surroundings of a command, with the files that it names already read. -/
def surroundingsOf (args : List String) : IO CommandLine.Surroundings := do
  let now := (← Std.Time.Timestamp.now).toSecondsSinceUnixEpoch.val
  match CommandLine.parse args with
  | .ok (.evaluate e) =>
    let names := e.file.toList ++ e.params.toList
    let texts ← names.mapM fun name => return (name, ← readTextFile name)
    let input ← if e.file.isSome then pure (.ok "") else readInput
    return ⟨fun name => (texts.lookup name).getD (.error "not read"), input, now⟩
  | _ => return ⟨fun _ => .error "not read", .ok "", now⟩

end ConfigExpr

def main (args : List String) : IO UInt32 := do
  let outcome := ConfigExpr.CommandLine.run args (← ConfigExpr.surroundingsOf args)
  (← IO.getStdout).putStr outcome.output
  (← IO.getStderr).putStr outcome.errors
  return UInt32.ofNat outcome.status
