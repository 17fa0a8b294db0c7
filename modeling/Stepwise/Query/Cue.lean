import Stepwise.Text.Alphabetic
import Stepwise.Text.Arithmetic
import Stepwise.Text.Scan

set_option autoImplicit false

/-! # What marks a query as mathematics

A query is taken for mathematics by the first of four cues, looked for in the trimmed query
in any letter case. The cue words hold ASCII letters only, and no other character has one of
these letters as its lower case, so ASCII case is all that has to be ignored.
-/

namespace Stepwise

/-! ## The words of root phrasings -/

/-- The name of the root in a call. -/
def sqrtWord : Text := ['s', 'q', 'r', 't']

/-- The first word of "square root of". -/
def squareWord : Text := ['s', 'q', 'u', 'a', 'r', 'e']

/-- The second word of "square root of". -/
def rootWord : Text := ['r', 'o', 'o', 't']

/-- The last word of "square root of". -/
def ofWord : Text := ['o', 'f']

/-! ## Cues -/

/-- Which rule marks a query as mathematics. -/
inductive Cue
  /-- `sqrt(` at the start and `)` at the end. -/
  | rootCall
  /-- A radical sign, "square root", or "root" as the first word. -/
  | rootPhrase
  /-- Arithmetic characters only. -/
  | arithmetic
  /-- Digits among other signs, but no letter. -/
  | symbolic
  deriving DecidableEq, Repr

/-- The two kinds of queries. -/
inductive QueryKind
  | math
  | general
  deriving DecidableEq, Repr

/-- The name of a kind. -/
def QueryKind.name : QueryKind → String
  | .math => "math"
  | .general => "general"

/-- The text starts with `sqrt`, perhaps blanks, and an opening parenthesis. -/
def startsRootCall (t : Text) : Bool :=
  match dropWord? sqrtWord t with
  | some rest => (Text.skipBlanks rest).head? = some '('
  | none => false

/-- The text starts with `square`, perhaps blanks, and `root`. -/
def startsSquareRoot (t : Text) : Bool :=
  match dropWord? squareWord t with
  | some rest => (dropWord? rootWord (Text.skipBlanks rest)).isSome
  | none => false

/-- The text starts with `root` and a blank. -/
def startsRootWord (t : Text) : Bool :=
  match dropWord? rootWord t with
  | some (c :: _) => isBlank c
  | _ => false

/-- The test holds of the text from one of its characters on. -/
def somewhere (test : Text → Bool) : Text → Bool
  | [] => false
  | c :: rest => test (c :: rest) || somewhere test rest

/-- The first rule that marks a query as mathematics. -/
def mathCue? (query : Text) : Option Cue :=
  let t := Text.trim query
  if t = [] then none
  else if startsRootCall t && t.getLast? = some ')' then some .rootCall
  else if t.contains '√' || somewhere startsSquareRoot t || startsRootWord t then
    some .rootPhrase
  else if isArithmeticText t then some .arithmetic
  else if t.any Char.isDigit && !t.any isAlphabetic then some .symbolic
  else none

/-- The kind of a query. -/
def classify (query : Text) : QueryKind :=
  if (mathCue? query).isSome then .math else .general

end Stepwise
