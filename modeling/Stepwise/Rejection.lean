import Stepwise.Expression.Grammar
import Stepwise.Query.RootCall

set_option autoImplicit false

/-! # Rejections

Why a query that was taken for mathematics has no regular explanation. Each rejection has a
kind and a stable code for programs, and a message for readers.
-/

namespace Stepwise

/-- Why a mathematical query is not explained. -/
inductive Rejection
  | invalidRadicand (cause : RadicandError)
  /-- Refused by the gate; nothing was read or evaluated. -/
  | unsupported (cause : ExpressionError)
  | malformed (cause : ExpressionError)
  | noPattern
  | queryTooLong (limit : Nat)
  deriving DecidableEq, Repr

namespace Rejection

/-- The rejection of a text that is no expression. -/
def ofExpression (cause : ExpressionError) : Rejection :=
  if cause.isUnsupported then .unsupported cause else .malformed cause

/-- The name of the kind. -/
def kind : Rejection → String
  | invalidRadicand _ => "InvalidRadicand"
  | unsupported _ => "UnsupportedExpression"
  | malformed _ => "MalformedExpression"
  | noPattern => "NoPattern"
  | queryTooLong _ => "QueryTooLong"

/-- The stable code. -/
def code : Rejection → String
  | invalidRadicand _ => "E_INVALID_RADICAND"
  | unsupported _ => "E_UNSUPPORTED"
  | malformed _ => "E_MALFORMED"
  | noPattern => "E_NO_PATTERN"
  | queryTooLong _ => "E_TOO_LONG"

/-- The message. -/
def message : Rejection → String
  | invalidRadicand cause => "invalid radicand: " ++ cause.message
  | unsupported cause => "unsupported expression: " ++ cause.message
  | malformed cause => "malformed expression: " ++ cause.message
  | noPattern => "input not recognized as a supported math pattern"
  | queryTooLong limit => "query is longer than " ++ toString limit ++ " characters"

end Rejection

end Stepwise
