import Mathlib.Logic.Basic

/-!
# The exit status of the rp2040 test runner

`rp2040_utils/unit_test_runner.py` flashes a test binary onto a Pi Pico and runs it: on the
board that `--serial-port` names, or, without that argument, on the first board that
`device_detector.detect_boards()` finds. `main` calls `sys.exit(0 if test_passed else 1)`
in the second branch only, so in the first the script ends when `main` returns, with status
`0`, whatever the test did.

The boards detected and the outcome of a test run are parameters; an exception nobody
catches ends the process with status `1`. Argument parsing and the test log file are left out.
-/

namespace Pigweed.Rp2040.UnitTestRunner

/-- How the script's process ends: `main` returns, `sys.exit(code)`, or an uncaught exception. -/
inductive ScriptEnd
  | returned
  | exited (code : ℕ)
  | raised (error : String)
  deriving DecidableEq, Repr

def ScriptEnd.status : ScriptEnd → ℕ
  | returned => 0
  | exited code => code
  | raised _ => 1

variable {Board : Type}

def detectAndRunTest (boards : List Board) (runTest : Board → Bool) : Except String Bool :=
  match boards with
  | [] => .error "Could not find an attached device"
  | board :: _ => .ok (runTest board)

/-- `main`: `serialPort` is `--serial-port`, `runTest` the outcome of the test on a detected
board, `runDeviceTest` that on the board the arguments name. -/
def main (serialPort : Option String) (boards : List Board) (runTest : Board → Bool)
    (runDeviceTest : Bool) : ScriptEnd :=
  if serialPort.getD "" = "" then
    match detectAndRunTest boards runTest with
    | .error e => .raised e
    | .ok _ => .returned
  else .exited (if runDeviceTest then 0 else 1)

example : (main none [()] (fun _ => false) false).status = 0 := rfl

end Pigweed.Rp2040.UnitTestRunner
