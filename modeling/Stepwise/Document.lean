import Stepwise.Explainer
import Stepwise.Json.Record

set_option autoImplicit false

/-! # The documents of the command line

The four documents in which answers are given to programs: an explanation with its steps, a
classification, a failure, and a single step. Each is a record with a JSON form
(`toJson`) and can be read back from it (`ofJson?`). The two with numbers in them are read with
any reader of numbers (`readWith?`), of which `ofJson?` takes the one with the short rule.
-/

namespace Stepwise

/-- The version of the documents. -/
def schemaVersion : UInt8 := 1

open JsonValue (required? optional? string? bool? nat? binary64?)

/-- The version number of a document. -/
def JsonValue.version? (v : JsonValue) : Option UInt8 := (v.nat? 255).map UInt8.ofNat

/-- The value of a version number. -/
def JsonValue.ofVersion (v : UInt8) : JsonValue := .number (.ofNat v.toNat)

/-! ## Steps -/

/-- A step with its number, counted from one. -/
structure StepDocument where
  index : Nat
  title : String
  detail : Option String := none
  result : Option Binary64 := none
  deriving DecidableEq

namespace StepDocument

/-- The JSON form of a step. -/
def toJson (d : StepDocument) : JsonValue :=
  .record [
    ("index", some (.number (.ofNat d.index))),
    ("title", some (.ofString d.title)),
    ("detail", d.detail.map .ofString),
    ("result", d.result.map .ofBinary64)]

/-- The step with a JSON form, for a reader of numbers. -/
def readWith? (number? : JsonValue → Option Binary64) (v : JsonValue) : Option StepDocument := do
  match ← v.fields? ["index", "title", "detail", "result"] with
  | [index, title, detail, result] =>
      return {
        index := ← required? (nat? JsonNumeral.maxWord) index
        title := ← required? string? title
        detail := ← optional? string? detail
        result := ← optional? number? result }
  | _ => none

/-- The step with a JSON form. -/
def ofJson? : JsonValue → Option StepDocument := readWith? binary64?

end StepDocument

/-! ## Rejections -/

/-- The kind, the code and the message of a rejection. -/
structure RejectionDocument where
  kind : String
  code : String
  message : String
  deriving DecidableEq

namespace RejectionDocument

/-- The JSON form of a rejection. -/
def toJson (d : RejectionDocument) : JsonValue :=
  .record [
    ("kind", some (.ofString d.kind)),
    ("code", some (.ofString d.code)),
    ("message", some (.ofString d.message))]

/-- The rejection with a JSON form. -/
def ofJson? (v : JsonValue) : Option RejectionDocument := do
  match ← v.fields? ["kind", "code", "message"] with
  | [kind, code, message] =>
      return {
        kind := ← required? string? kind
        code := ← required? string? code
        message := ← required? string? message }
  | _ => none

/-- The document of a rejection. -/
def ofRejection (r : Rejection) : RejectionDocument := ⟨r.kind, r.code, r.message⟩

end RejectionDocument

/-! ## Explanations -/

/-- An explanation. It is not `ok` exactly when the query was rejected; the steps are there
all the same. -/
structure ExplainDocument where
  version : UInt8 := schemaVersion
  ok : Bool := true
  input : String
  route : String
  title : String
  steps : List StepDocument := []
  finalResult : Option Binary64 := none
  error : Option RejectionDocument := none
  deriving DecidableEq

namespace ExplainDocument

/-- The document with one step more, numbered after the steps that are there. The final result
is the one of the last step that has a result. -/
def addStep (d : ExplainDocument) (step : Step) : ExplainDocument :=
  { d with
    steps := d.steps ++ [⟨d.steps.length + 1, step.title, step.detail, step.result⟩]
    finalResult := step.result.or d.finalResult }

/-- The document of a rejected query. -/
def withError (d : ExplainDocument) (error : RejectionDocument) : ExplainDocument :=
  { d with ok := false, error := some error }

/-- The document of an outcome. -/
def ofOutcome (input : String) (o : Outcome) : ExplainDocument :=
  let empty : ExplainDocument := { input, route := o.route.name, title := o.trace.title }
  let explained := o.trace.steps.foldl addStep empty
  match o.route.rejection? with
  | some reason => explained.withError (.ofRejection reason)
  | none => explained

/-- The JSON form of an explanation. -/
def toJson (d : ExplainDocument) : JsonValue :=
  .record [
    ("schema_version", some (.ofVersion d.version)),
    ("ok", some (.bool d.ok)),
    ("input", some (.ofString d.input)),
    ("route", some (.ofString d.route)),
    ("title", some (.ofString d.title)),
    ("steps", some (.array (d.steps.map StepDocument.toJson))),
    ("final_result", d.finalResult.map .ofBinary64),
    ("error", d.error.map RejectionDocument.toJson)]

section

variable (number? : JsonValue → Option Binary64)

/-- The steps in an array, for a reader of numbers. -/
def stepsWith? : JsonValue → Option (List StepDocument)
  | .array items => items.mapM (StepDocument.readWith? number?)
  | _ => none

/-- The explanation with a JSON form, for a reader of numbers. -/
def readWith? (v : JsonValue) : Option ExplainDocument := do
  match ← v.fields? ["schema_version", "ok", "input", "route", "title", "steps",
      "final_result", "error"] with
  | [version, ok, input, route, title, steps, finalResult, error] =>
      return {
        version := ← required? JsonValue.version? version
        ok := ← required? bool? ok
        input := ← required? string? input
        route := ← required? string? route
        title := ← required? string? title
        steps := ← required? (stepsWith? number?) steps
        finalResult := ← optional? number? finalResult
        error := ← optional? RejectionDocument.ofJson? error }
  | _ => none

end

/-- The explanation with a JSON form. -/
def ofJson? : JsonValue → Option ExplainDocument := readWith? binary64?

end ExplainDocument

/-! ## Classifications -/

/-- The kind of a query and its canonical form. -/
structure ClassifyDocument where
  version : UInt8 := schemaVersion
  input : String
  kind : String
  normalized : String
  deriving DecidableEq

namespace ClassifyDocument

/-- The document of a query. -/
def ofQuery (query : String) : ClassifyDocument :=
  { input := query
    kind := (classify query.toList).name
    normalized := String.ofList (canonical query.toList) }

/-- The JSON form of a classification. -/
def toJson (d : ClassifyDocument) : JsonValue :=
  .record [
    ("schema_version", some (.ofVersion d.version)),
    ("input", some (.ofString d.input)),
    ("kind", some (.ofString d.kind)),
    ("normalized", some (.ofString d.normalized))]

/-- The classification with a JSON form. -/
def ofJson? (v : JsonValue) : Option ClassifyDocument := do
  match ← v.fields? ["schema_version", "input", "kind", "normalized"] with
  | [version, input, kind, normalized] =>
      return {
        version := ← required? JsonValue.version? version
        input := ← required? string? input
        kind := ← required? string? kind
        normalized := ← required? string? normalized }
  | _ => none

end ClassifyDocument

/-! ## Failures -/

/-- A failure that leaves no explanation, such as settings that cannot be read. -/
structure FailureDocument where
  version : UInt8 := schemaVersion
  ok : Bool := false
  kind : String := "InternalError"
  code : String := "E_INTERNAL"
  error : String
  input : Option String := none
  deriving DecidableEq

namespace FailureDocument

/-- The JSON form of a failure. -/
def toJson (d : FailureDocument) : JsonValue :=
  .record [
    ("schema_version", some (.ofVersion d.version)),
    ("ok", some (.bool d.ok)),
    ("kind", some (.ofString d.kind)),
    ("code", some (.ofString d.code)),
    ("error", some (.ofString d.error)),
    ("input", d.input.map .ofString)]

/-- The failure with a JSON form. -/
def ofJson? (v : JsonValue) : Option FailureDocument := do
  match ← v.fields? ["schema_version", "ok", "kind", "code", "error", "input"] with
  | [version, ok, kind, code, error, input] =>
      return {
        version := ← required? JsonValue.version? version
        ok := ← required? bool? ok
        kind := ← required? string? kind
        code := ← required? string? code
        error := ← required? string? error
        input := ← optional? string? input }
  | _ => none

end FailureDocument

end Stepwise
