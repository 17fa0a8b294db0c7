import Stepwise.Query.Cue

set_option autoImplicit false

/-! # The canonical phrasing of a root

A root can be asked for in several phrasings. `canonical` trims a query and turns each of them
into `sqrt(N)`, where `N` is a decimal literal with an optional minus sign, in four passes:

1. a radical sign, with or without an opening parenthesis behind it, becomes `sqrt(`;
2. `square root of N` becomes `sqrt(N)`;
3. a whole text `root N` becomes `sqrt(N)`;
4. `sqrt(N`, with or without a closing parenthesis, becomes `sqrt(N)`.

A text without any of these phrasings is only trimmed.
-/

namespace Stepwise

/-- What a rule puts in place of the start of a text, with the rest of the text. -/
abbrev PhrasingRule := Text → Option (Text × Text)

/-- The rule applied at every position from left to right. Where it does not apply, or takes
nothing away, the character is copied. -/
def replaceAll (rule : PhrasingRule) : Text → Text
  | [] => []
  | c :: rest =>
      match rule (c :: rest) with
      | some (replacement, after) =>
          if after.length < (c :: rest).length then replacement ++ replaceAll rule after
          else c :: replaceAll rule rest
      | none => c :: replaceAll rule rest
termination_by t => t.length
decreasing_by
  · assumption
  · exact Nat.lt_succ_self _
  · exact Nat.lt_succ_self _

/-- The opening of a root call. -/
def callOpening : Text := ['s', 'q', 'r', 't', '(']

/-- The root call of a literal. -/
def rootCall (argument : Literal) : Text := callOpening ++ argument.text ++ [')']

/-- The literal at the start of a text, with the rest. -/
def literal? (t : Text) : Option (Literal × Text) :=
  match scanSigned t with
  | .ok found => some found
  | .error _ => none

/-- A radical sign, and an opening parenthesis if one follows after blanks. -/
def radicalRule : PhrasingRule
  | '√' :: rest =>
      match Text.skipBlanks rest with
      | '(' :: after => some (callOpening, after)
      | _ => some (callOpening, rest)
  | _ => none

/-- The words "square root of" and a literal. -/
def phraseRule : PhrasingRule := fun t => do
  let t ← dropWord? squareWord t
  let t ← dropWord? rootWord (Text.skipBlanks t)
  let t ← dropWord? ofWord (Text.skipBlanks t)
  let (argument, rest) ← literal? (Text.skipBlanks t)
  return (rootCall argument, rest)

/-- An opened root call with a literal, and the closing parenthesis if it follows. -/
def callRule : PhrasingRule := fun t => do
  let t ← dropWord? callOpening t
  let (argument, rest) ← literal? (Text.skipBlanks t)
  match Text.skipBlanks rest with
  | ')' :: after => return (rootCall argument, after)
  | _ => return (rootCall argument, rest)

/-- A whole text of the word "root" and a literal, as a root call. -/
def leadingRoot? (t : Text) : Option Text := do
  let t ← dropWord? rootWord t
  let (argument, rest) ← literal? (Text.skipBlanks t)
  if rest = [] then return rootCall argument else none

/-- The query with its root phrasings in canonical form. -/
def canonical (query : Text) : Text :=
  let t := replaceAll radicalRule (Text.trim query)
  let t := replaceAll phraseRule t
  let t := (leadingRoot? t).getD t
  replaceAll callRule t

end Stepwise
