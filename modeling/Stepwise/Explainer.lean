import Stepwise.Explain.Expression
import Stepwise.Explain.Operation
import Stepwise.Explain.Root
import Stepwise.Explain.Topic
import Stepwise.Query.Canonical

set_option autoImplicit false

/-! # From a query to its explanation

An explainer takes every query to an `Outcome`: a trace, and the route that led to it. A
query over the length limit is rejected first. A query with a cue of mathematics is put into
canonical form and offered to the patterns in a fixed order; the first pattern that claims it
explains or rejects it. All other queries go to the explainer of general topics.

Whether a root can be simplified depends on its factorization, which fails on zero. The definitions
that end in `M` leave open how it is simplified; the ones after them take `simplify`.
-/

namespace Stepwise

/-- The bounds an explainer keeps to. -/
structure Limits where
  /-- The largest radicand that is explained. -/
  maxRadicand : UInt64 := 1000000000000
  /-- The largest number of characters of a query. -/
  maxQueryChars : Nat := 4096
  deriving DecidableEq, Repr

/-- The way to a trace. -/
inductive Route
  | root
  | operation
  | expression
  | general
  | rejected (reason : Rejection)
  deriving DecidableEq, Repr

namespace Route

/-- The name of a route. -/
def name : Route → String
  | root => "sqrt"
  | operation => "binary_op"
  | expression => "expression"
  | general => "general"
  | rejected _ => "rejected"

/-- The rejection, on the rejected route. -/
def rejection? : Route → Option Rejection
  | rejected reason => some reason
  | _ => none

end Route

/-- A trace with the route that led to it. -/
structure Outcome where
  trace : Trace
  route : Route
  deriving DecidableEq

/-! ## Patterns -/

/-- A shape of mathematical text, whose traces are computed in `m`. `explain?` is `none` for a text
of another shape, and a rejection for a text of this shape that cannot be explained. -/
structure Pattern (m : Type → Type) where
  route : Route
  explain? : Limits → Text → Option (Except Rejection (m Trace))

section

variable {m : Type → Type} [Monad m] (simplified : UInt64 → m Simplification)

namespace Pattern

/-- A root call, given how a root is simplified. -/
def rootM : Pattern m where
  route := .root
  explain? limits t :=
    match parseRootCall t with
    | .error _ => none
    | .ok argument =>
        some (match readRadicand argument.text limits.maxRadicand with
          | .ok n => .ok (explainRootM simplified n)
          | .error cause => .error (.invalidRadicand cause))

/-- A single operation. -/
def operation : Pattern m where
  route := .operation
  explain? _ t :=
    match parseOperation t with
    | .error _ => none
    | .ok o => some (.ok (pure (explainOperation o)))

/-- An expression. This pattern claims every text. -/
def expression : Pattern m where
  route := .expression
  explain? _ t :=
    some (match parseExpression t with
      | .ok e => .ok (pure (explainExpression t e))
      | .error cause => .error (.ofExpression cause))

/-- The patterns in the order in which a text is offered to them. -/
def allM : List (Pattern m) := [rootM simplified, operation, expression]

end Pattern

/-- What the first of the patterns to claim a text makes of it. -/
def explainTextM (limits : Limits) (t : Text) : List (Pattern m) → Except Rejection (m Outcome)
  | [] => .error .noPattern
  | pattern :: rest =>
      match pattern.explain? limits t with
      | none => explainTextM limits t rest
      | some (.ok trace) => .ok do return ⟨← trace, pattern.route⟩
      | some (.error reason) => .error reason

end

/-! ## Explainers -/

/-- The pipeline with its bounds and its explainer of general topics. -/
structure Explainer where
  limits : Limits := {}
  explainTopic : String → Trace := outlineTopic

namespace Explainer

/-- The outcome of a rejection. -/
def reject (reason : Rejection) : Outcome := ⟨explainRejection reason, .rejected reason⟩

section

variable {m : Type → Type} [Monad m] (simplified : UInt64 → m Simplification)

/-- A query taken for mathematics, given how a root is simplified. -/
def explainMathM (e : Explainer) (query : String) : Except Rejection (m Outcome) :=
  explainTextM e.limits (canonical query.toList) (Pattern.allM simplified)

/-- The outcome of a query, given how a root is simplified. -/
def runM (e : Explainer) (query : String) : m Outcome :=
  if query.length > e.limits.maxQueryChars then
    pure (reject (.queryTooLong e.limits.maxQueryChars))
  else if (mathCue? query.toList).isSome then
    match e.explainMathM simplified query with
    | .ok outcome => outcome
    | .error reason => pure (reject reason)
  else pure ⟨e.explainTopic query, .general⟩

end

end Explainer

/-! ## With `simplify` -/

namespace Pattern

/-- A root call. -/
def root : Pattern Id := rootM (pure ∘ simplify)

/-- The patterns in the order in which a text is offered to them. -/
def all : List (Pattern Id) := allM (pure ∘ simplify)

theorem all_eq : all = [root, operation, expression] := rfl

end Pattern

/-- What the first of the patterns to claim a text makes of it. -/
def explainText (limits : Limits) (t : Text) (patterns : List (Pattern Id)) :
    Except Rejection Outcome :=
  explainTextM limits t patterns

theorem explainText_cons (limits : Limits) (t : Text) (pattern : Pattern Id)
    (rest : List (Pattern Id)) :
    explainText limits t (pattern :: rest) =
      match pattern.explain? limits t with
      | none => explainText limits t rest
      | some (.ok trace) => .ok ⟨trace, pattern.route⟩
      | some (.error reason) => .error reason := by
  rw [explainText, explainTextM]
  rcases pattern.explain? limits t with _ | _ | _ <;> rfl

/-- A text is offered to the root call first, then to the single operation, and then taken for an
expression. -/
theorem explainText_all (limits : Limits) (t : Text) :
    explainText limits t Pattern.all =
      match parseRootCall t with
      | .ok argument =>
          match readRadicand argument.text limits.maxRadicand with
          | .ok n => .ok ⟨explainRoot n, .root⟩
          | .error cause => .error (.invalidRadicand cause)
      | .error _ =>
          match parseOperation t with
          | .ok o => .ok ⟨explainOperation o, .operation⟩
          | .error _ =>
              match parseExpression t with
              | .ok e => .ok ⟨explainExpression t e, .expression⟩
              | .error cause => .error (.ofExpression cause) := by
  rw [Pattern.all_eq, explainText_cons, explainText_cons, explainText_cons]
  cases hcall : parseRootCall t with
  | ok argument =>
      simp only [Pattern.root, Pattern.rootM, hcall]
      cases readRadicand argument.text limits.maxRadicand <;> rfl
  | error _ =>
      cases hoperation : parseOperation t with
      | ok o =>
          simp only [Pattern.root, Pattern.rootM, Pattern.operation, hcall, hoperation]
          rfl
      | error _ =>
          simp only [Pattern.root, Pattern.rootM, Pattern.operation, Pattern.expression, hcall,
            hoperation]
          cases parseExpression t <;> rfl

namespace Explainer

/-- A query taken for mathematics, whatever its length and its cues. -/
def explainMath (e : Explainer) (query : String) : Except Rejection Outcome :=
  explainText e.limits (canonical query.toList) Pattern.all

/-- The outcome of a query. -/
def run (e : Explainer) (query : String) : Outcome := Id.run (e.runM (pure ∘ simplify) query)

theorem run_eq (e : Explainer) (query : String) :
    e.run query =
      if query.length > e.limits.maxQueryChars then
        reject (.queryTooLong e.limits.maxQueryChars)
      else if (mathCue? query.toList).isSome then
        match e.explainMath query with
        | .ok outcome => outcome
        | .error reason => reject reason
      else ⟨e.explainTopic query, .general⟩ := by
  unfold run runM
  split
  · rfl
  · split
    · have hmath : explainMathM (m := Id) (pure ∘ simplify) e query = e.explainMath query := rfl
      rw [hmath]
      cases e.explainMath query <;> rfl
    · rfl

/-- The explanation of a query. -/
def explain (e : Explainer) (query : String) : Trace := (e.run query).trace

end Explainer

end Stepwise
