import Straightline.CommandLine.Command
import Straightline.Double.Fixed

/-!
# The program

Runs the command on the files of the outside world.
-/

namespace Straightline

/-- An error of the outside world. The code of an error may come with a minus sign. -/
def FileError.ofOutside : IO.Error → FileError
  | .noFileOrDirectory .. => .notFound
  | .inappropriateType _ code _ =>
    if code = 20 || code = -20 then .notADirectory else .isADirectory
  | .invalidArgument (some path) code details =>
    if code = 36 || code = -36 then .nameTooLong
    else .other (IO.Error.invalidArgument (some path) code details).toString
  | e => .other e.toString

/-- Try something in the outside world. -/
def attempt {α : Type} (work : IO α) : IO (Except FileError α) := do
  match ← work.toBaseIO with
  | .ok a => return .ok a
  | .error e => return .error (.ofOutside e)

instance : FileSystem IO where
  read path := attempt (IO.FS.readBinFile path)
  write path bytes := attempt (IO.FS.writeBinFile path bytes)
  isFile path := do return (← attempt (IO.FS.readBinFile path)).isOk

end Straightline

open Straightline

def main (arguments : List String) : IO UInt32 := do
  let start ← IO.monoMsNow
  let response : Response ← respond arguments (← IO.getEnv "SSC_LOG")
  let elapsed := Double.ofFraction false ((← IO.monoMsNow) - start) 1000
  IO.eprint (response.stderr (elapsed.toFixed 2))
  IO.print response.stdout
  return response.exitCode.toUInt32
