/-!
# Python exceptions

The exceptions the modelled code raises itself, and those of the built-in operations it
uses.
-/

namespace DrbdTests

inductive PyError
  | assertionError
  | attributeError
  | indexError
  | keyError
  | nameError
  | runtimeError (message : String)
  | stopIteration
  | typeError
  | unboundLocalError
  | valueError
  | zeroDivisionError
  /-- `subprocess.CalledProcessError`: a command ended with a non-zero code. -/
  | calledProcessError (returncode : Nat)
  /-- `sys.exit` -/
  | systemExit (code : Nat)
  deriving DecidableEq, Repr

end DrbdTests
