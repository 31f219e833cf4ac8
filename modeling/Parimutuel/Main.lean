import Parimutuel.Command

namespace Parimutuel.Command

def readVariables : IO Variables := do
  let mut env : Variables := []
  for name in Settings.names do
    if let some value ← IO.getEnv name then
      env := env ++ [(Text.ofString name, Text.ofString value)]
  return env

-- A folder is opened like a file and only then found out, so that no name comes with the error.
def problemOf : IO.Error → Path.Problem
  | .inappropriateType none _ _ => .isFolder
  | .inappropriateType (some _) _ _ => .notFolder
  | .invalidArgument .. => .tooLong
  | _ => .missing

def readBytes (path : Path) : IO (Except Path.Problem (List UInt8)) := do
  match Text.native? path.shown with
  | .error e => return .error (.native e)
  | .ok () =>
    try
      let bytes ← IO.FS.readBinFile (Text.toString path.shown)
      return .ok bytes.toList
    catch e => return .error (problemOf e)

-- A crash ends with exit code 1, a mistake in the options with their own.
def stopWith (s : Stop) : IO UInt32 := do
  match s with
  | .usage exit =>
    unless exit.code = 0 do IO.eprintln ("grid-bot: error: " ++ Text.toString exit.message)
    return exit.code.toUInt32
  | other =>
    IO.eprintln (Text.toString other.message)
    return 1

def finish (o : Outcome) : IO UInt32 := do
  IO.print o.out
  for line in o.lines do
    IO.eprintln line
  return o.exit.toUInt32

-- How deep values may stand in one another when the command is called from a shell: a thousand frames
-- less those of the reader and of what called it.
def stack : Nat := 990

def start (arguments : List String) : IO UInt32 := do
  match setup? (arguments.map Text.ofString) (← readVariables) with
  | .error s => stopWith s
  | .ok setup =>
    match setup.path? with
    | .error s => stopWith s
    | .ok path =>
      match ← readBytes path with
      | .error problem => stopWith (.file path problem)
      | .ok bytes =>
        match answer? stack setup bytes with
        | .error s => stopWith s
        | .ok outcome => finish outcome

end Parimutuel.Command

def main (arguments : List String) : IO UInt32 := Parimutuel.Command.start arguments
