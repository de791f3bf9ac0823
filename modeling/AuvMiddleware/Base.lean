import Mathlib.Init

/-!
# Exceptions
-/

namespace AuvMiddleware

/-- The standard exceptions the code throws or lets through, with their `what()` texts. -/
inductive Exn where
  | runtimeError (what : String)
  | logicError (what : String)
  | invalidArgument (what : String)
  | outOfRange (what : String)
  | exception (what : String)
  deriving DecidableEq, Repr

def Exn.what : Exn → String
  | .runtimeError w | .logicError w | .invalidArgument w | .outOfRange w | .exception w => w

/-- Anything C++ can throw: something derived from `std::exception`, or not. -/
inductive Thrown where
  | std (e : Exn)
  | foreign
  deriving DecidableEq, Repr

end AuvMiddleware
