import Admission.CommandLine.Basic
import Admission.Terminal

/-!
# The program

Words of the command line in, exit code out. What is wrong goes to the error output.
-/

def main (words : List String) : IO UInt32 := do
  let (code, fault) ← (Admission.CommandLine.main words : IO _)
  match fault with
  | some text => IO.eprintln text
  | none => pure ()
  return code.toUInt32
