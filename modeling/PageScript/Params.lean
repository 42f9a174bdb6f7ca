import Std.Data.ExtTreeMap
/-!
# Parameters

Parameters are named texts.  A script sees three stores of them: those of the request, which it can
only read, those that persist from one request of a client to the next, and those that last as
long as the request.
-/

namespace PageScript

/-- Named texts. -/
abbrev Params := Std.ExtTreeMap String String

/-- The stores of parameters that a script sees. -/
inductive Store where
  /-- The parameters of the request. -/
  | request
  /-- The parameters that persist for a client. -/
  | persistent
  /-- The parameters that last as long as the request. -/
  | temporary
deriving DecidableEq, Repr

/-- The stores of parameters that a script may change. -/
inductive Memory where
  /-- The parameters that persist for a client. -/
  | persistent
  /-- The parameters that last as long as the request. -/
  | temporary
deriving DecidableEq, Repr

/-- A store that may be changed is a store. -/
def Memory.store : Memory → Store
  | persistent => .persistent
  | temporary => .temporary

end PageScript
