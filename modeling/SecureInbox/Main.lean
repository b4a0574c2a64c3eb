import SecureInbox.Program.Run

/-!
# The program

The program on a real system. Its output goes to standard output, errors and
hints go to standard error. It exits with 1 after an error and with 2 when the
arguments make no request.
-/

namespace SecureInbox.Program

/-- The error of the system in terms of the library. -/
def fileError : IO.Error → FileError
  | .noFileOrDirectory _ code details => .system details code.toNat
  | .permissionDenied _ code details => .system details code.toNat
  | .alreadyExists _ code details => .system details code.toNat
  | .inappropriateType _ code details => .system details code.toNat
  | .invalidArgument _ code details => .system details code.toNat
  | .resourceExhausted _ code details => .system details code.toNat
  | .otherError code details => .system details code.toNat
  | _ => .notText

/-- An action that may fail. -/
def attempting {α : Type} (action : IO α) : IO (Except FileError α) := do
  try
    return .ok (← action)
  catch e => return .error (fileError e)

/-- An action on a path. A path with the character NUL in it is not passed on. -/
def attemptingAt {α : Type} (path : String) (action : IO α) : IO (Except FileError α) :=
  if path.toList.contains '\x00' then return .error .nulInPath else attempting action

/-- The actions of the real system. -/
def realHost : Host IO where
  environment name := IO.getEnv name
  input := attempting do
    let stdin ← IO.getStdin
    stdin.readToEnd
  read path := attemptingAt path (IO.FS.readFile path)
  write path contents := attemptingAt path (IO.FS.writeFile path contents)
  openLog path := attemptingAt path do
    let _ ← IO.FS.Handle.mk path .append
  isThere path := do (← IO.FS.realPath path).pathExists
  isDirectory path := do (← IO.FS.realPath path).isDir
  makeDirectory path := attemptingAt path (IO.FS.createDir path)
  clock := IO.monoNanosNow

end SecureInbox.Program

open SecureInbox

/-- Runs the request that the arguments make. -/
def main (arguments : List String) : IO UInt32 := do
  match ← Program.run Program.realHost arguments with
  | .done output =>
    IO.print output
    return 0
  | .failed cause =>
    IO.eprintln ("Error: " ++ cause.message)
    return 1
  | .misused =>
    IO.eprint Program.usage
    return 2
