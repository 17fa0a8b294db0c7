import Stepwise.Proofs.Finiteness
import Stepwise.Proofs.Grammar.Expressions

set_option autoImplicit false

/-! # Texts of whole numbers

The exact meaning of a text without points and division signs: a tree of whole numbers under `+`,
`-`, `*` and the minus sign, with the usual precedence, and grouped to the left
(`IntegerExpression.IsWritten`). Such a tree is about the digits in the text and not about the
binary64 numbers nearest to them. Every text of this kind that is read as an expression has one
(`exists_isWritten`). If its numbers are not out of range, the expression is the tree with every
number rounded (`eq_toExpression_of_isWritten`), because two derivations of one text are both what
the recognizer finds when it may open as many parentheses as either of them has.
-/

namespace Stepwise

/-- An operator that takes whole numbers to whole numbers. -/
inductive IntegerOperator
  | add
  | sub
  | mul
  deriving DecidableEq, Repr

namespace IntegerOperator

/-- The operator among the four of the grammar. -/
def operator : IntegerOperator → Operator
  | add => .add
  | sub => .sub
  | mul => .mul

/-- The exact value of the operation. -/
def apply : IntegerOperator → Int → Int → Int
  | add, a, b => a + b
  | sub, a, b => a - b
  | mul, a, b => a * b

theorem operator_ne_div (op : IntegerOperator) : op.operator ≠ .div := by
  cases op <;> decide

end IntegerOperator

/-- An expression of whole numbers. -/
inductive IntegerExpression
  | number (value : Nat)
  | negation (operand : IntegerExpression)
  | binary (op : IntegerOperator) (left right : IntegerExpression)
  deriving DecidableEq, Repr

/-- One operation on whole numbers. -/
structure IntegerReduction where
  left : Int
  op : IntegerOperator
  right : Int
  deriving DecidableEq, Repr

/-- The exact value of the operation. -/
def IntegerReduction.value (step : IntegerReduction) : Int := step.op.apply step.left step.right

namespace IntegerExpression

/-- The exact value of the expression. -/
def value : IntegerExpression → Int
  | number value => value
  | negation operand => -operand.value
  | binary op left right => op.apply left.value right.value

/-- The sub-expressions, with the expression itself as the last one. -/
def subexpressions : IntegerExpression → List IntegerExpression
  | number value => [number value]
  | negation operand => operand.subexpressions ++ [negation operand]
  | binary op left right => left.subexpressions ++ right.subexpressions ++ [binary op left right]

/-- The operations in the order in which they are carried out, with exact values. -/
def reductions : IntegerExpression → List IntegerReduction
  | number _ => []
  | negation operand => operand.reductions
  | binary op left right => left.reductions ++ right.reductions ++ [⟨left.value, op, right.value⟩]

/-- The expression with the binary64 number nearest to each number. -/
def toExpression : IntegerExpression → Expression
  | number value => .number (.ofNat value)
  | negation operand => .negation operand.toExpression
  | binary op left right => .binary op.operator left.toExpression right.toExpression

end IntegerExpression

namespace Grammar

/-! ## Meaning -/

/-- The tokens stand for the expression of whole numbers. Products bind closer than sums, a minus
sign closer than products, and operators of one level group to the left. -/
inductive Denotes : Level → List Token → IntegerExpression → Prop
  | number {digits : Text} :
      Denotes .primary [.number ⟨false, digits, none⟩] (.number (Nat.ofDigitChars 10 digits 0))
  | parentheses {tokens : List Token} {e : IntegerExpression} (h : Denotes .sum tokens e) :
      Denotes .primary (.opening :: (tokens ++ [.closing])) e
  | unsigned {tokens : List Token} {e : IntegerExpression} (h : Denotes .primary tokens e) :
      Denotes .factor tokens e
  | negated {tokens : List Token} {e : IntegerExpression} (h : Denotes .primary tokens e) :
      Denotes .factor (.operator .sub :: tokens) (.negation e)
  | loneFactor {tokens : List Token} {e : IntegerExpression} (h : Denotes .factor tokens e) :
      Denotes .product tokens e
  | multiplicative {tokens operand : List Token} {left right : IntegerExpression}
      (hleft : Denotes .product tokens left) (hright : Denotes .factor operand right) :
      Denotes .product (tokens ++ .operator .mul :: operand) (.binary .mul left right)
  | loneProduct {tokens : List Token} {e : IntegerExpression} (h : Denotes .product tokens e) :
      Denotes .sum tokens e
  | additive {op : IntegerOperator} {tokens operand : List Token} {left right : IntegerExpression}
      (hop : op = .add ∨ op = .sub) (hleft : Denotes .sum tokens left)
      (hright : Denotes .product operand right) :
      Denotes .sum (tokens ++ .operator op.operator :: operand) (.binary op left right)

end Grammar

open Grammar

/-- The text is written as tokens that stand for the expression, with white space behind them or
none. -/
def IntegerExpression.IsWritten (e : IntegerExpression) (t : Text) : Prop :=
  ∃ tokens body trailing, t = body ++ trailing ∧ Spells tokens body ∧ AllWhiteSpace trailing ∧
    Denotes .sum tokens e

/-! ## From the meaning to the tree -/

namespace Grammar

theorem toBinary64_whole (digits : Text) :
    Literal.toBinary64 ⟨false, digits, none⟩ = .ofNat (Nat.ofDigitChars 10 digits 0) := by
  simp [Literal.toBinary64, Literal.decimal, Decimal.toBinary64, Binary64.ofNat]

/-- A derivation may open more parentheses than it does. -/
theorem Derives.deeper {depth deeper : Nat} {level : Level} {tokens : List Token} {e : Expression}
    (h : Derives depth level tokens e) (hle : depth ≤ deeper) : Derives deeper level tokens e := by
  induction h generalizing deeper with
  | number hfinite => exact .number hfinite
  | parentheses _ ih =>
      obtain ⟨deeper, rfl⟩ : ∃ k, deeper = k + 1 := ⟨deeper - 1, by omega⟩
      exact .parentheses (ih (by omega))
  | unsigned _ ih => exact .unsigned (ih hle)
  | negated _ ih => exact .negated (ih hle)
  | loneFactor _ ih => exact .loneFactor (ih hle)
  | multiplicative hop _ _ ihleft ihright => exact .multiplicative hop (ihleft hle) (ihright hle)
  | loneProduct _ ih => exact .loneProduct (ih hle)
  | additive hop _ _ ihleft ihright => exact .additive hop (ihleft hle) (ihright hle)

/-- Tokens that stand for an expression of whole numbers derive the rounded expression, if as many
parentheses may be opened as there are. -/
theorem Denotes.derives {level : Level} {tokens : List Token} {e : IntegerExpression}
    (h : Denotes level tokens e) (hfinite : e.toExpression.LiteralsFinite) {depth : Nat}
    (hdepth : tokens.count .opening ≤ depth) : Derives depth level tokens e.toExpression := by
  induction h generalizing depth with
  | @number digits =>
      rw [IntegerExpression.toExpression, ← toBinary64_whole] at hfinite ⊢
      exact .number hfinite
  | parentheses _ ih =>
      rw [List.count_cons_self, List.count_append] at hdepth
      obtain ⟨depth, rfl⟩ : ∃ k, depth = k + 1 := ⟨depth - 1, by omega⟩
      exact .parentheses (ih hfinite (by omega))
  | unsigned _ ih => exact .unsigned (ih hfinite hdepth)
  | negated _ ih => exact .negated (ih hfinite (by simpa using hdepth))
  | loneFactor _ ih => exact .loneFactor (ih hfinite hdepth)
  | loneProduct _ ih => exact .loneProduct (ih hfinite hdepth)
  | multiplicative _ _ ihleft ihright =>
      rw [List.count_append, List.count_cons] at hdepth
      exact .multiplicative (.inl rfl) (ihleft hfinite.1 (by omega)) (ihright hfinite.2 (by omega))
  | @additive op _ _ _ _ hop _ _ ihleft ihright =>
      rw [List.count_append, List.count_cons] at hdepth
      have hlevel : op.operator = .add ∨ op.operator = .sub := by
        rcases hop with rfl | rfl
        · exact .inl rfl
        · exact .inr rfl
      exact .additive hlevel (ihleft hfinite.1 (by omega)) (ihright hfinite.2 (by omega))

end Grammar

/-- What is read from a text is the rounded expression, if its numbers are not out of range. -/
theorem eq_toExpression_of_isWritten {t : Text} {tree : Expression} {e : IntegerExpression}
    (hparse : parseExpression t = .ok tree) (hwritten : e.IsWritten t)
    (hfinite : e.toExpression.LiteralsFinite) : tree = e.toExpression := by
  obtain ⟨tokens, body, trailing, ht, hspells, htrailing, hderives⟩ := parseExpression_sound hparse
  obtain ⟨tokens', body', trailing', ht', hspells', htrailing', hdenotes⟩ := hwritten
  -- both derivations fit into the greater of the two depths
  have hdeep : Derives (max maxNesting (tokens'.count .opening)) .sum tokens tree :=
    hderives.deeper (Nat.le_max_left _ _)
  have hdeep' := hdenotes.derives hfinite (Nat.le_max_right maxNesting _)
  have hread := sum_nested_of_derives hspells htrailing hdeep
  have hread' := sum_nested_of_derives hspells' htrailing' hdeep'
  rw [← ht] at hread
  rw [← ht', hread] at hread'
  exact congrArg Prod.fst (Except.ok.inj hread')

/-! ## From the tree to the meaning -/

namespace Grammar

/-- The token is no number with a point, and no division sign. -/
def Token.IsInteger : Token → Prop
  | .number literal => ∃ digits, literal = ⟨false, digits, none⟩
  | .operator op => op ≠ .div
  | _ => True

theorem Token.WellFormed.isInteger {token : Token} (h : token.WellFormed)
    (hpoint : '.' ∉ token.text) (hdivision : '/' ∉ token.text) : token.IsInteger := by
  cases token with
  | number literal =>
      cases h with
      | @whole digits _ _ => exact ⟨digits, rfl⟩
      | pointed => exact absurd (by simp [Token.text, Literal.text]) hpoint
      | fractional => exact absurd (by simp [Token.text, Literal.text]) hpoint
  | operator op =>
      rintro rfl
      exact hdivision List.mem_cons_self
  | opening => trivial
  | closing => trivial

/-- A text without points and division signs is written with tokens that have none. -/
theorem Spells.forall_isInteger {tokens : List Token} {t : Text} (h : Spells tokens t)
    (hpoint : '.' ∉ t) (hdivision : '/' ∉ t) : ∀ token ∈ tokens, token.IsInteger := by
  induction h with
  | nil => exact List.forall_mem_nil _
  | cons hblanks hform hrest ih =>
      simp only [List.mem_append, not_or] at hpoint hdivision
      exact List.forall_mem_cons.2
        ⟨hform.isInteger hpoint.1.2 hdivision.1.2, ih hpoint.2 hdivision.2⟩

/-- What derives an expression stands for an expression of whole numbers, if there are no points and
no division signs. -/
theorem Derives.exists_denotes {depth : Nat} {level : Level} {tokens : List Token} {e : Expression}
    (h : Derives depth level tokens e) (hinteger : ∀ token ∈ tokens, token.IsInteger) :
    ∃ meaning, Denotes level tokens meaning := by
  induction h with
  | number hfinite =>
      obtain ⟨digits, rfl⟩ := List.forall_mem_singleton.1 hinteger
      exact ⟨_, .number⟩
  | parentheses _ ih =>
      obtain ⟨meaning, hmeaning⟩ := ih fun token htoken => hinteger token (by simp [htoken])
      exact ⟨meaning, .parentheses hmeaning⟩
  | unsigned _ ih =>
      obtain ⟨meaning, hmeaning⟩ := ih hinteger
      exact ⟨meaning, .unsigned hmeaning⟩
  | negated _ ih =>
      obtain ⟨meaning, hmeaning⟩ := ih (List.forall_mem_cons.1 hinteger).2
      exact ⟨.negation meaning, .negated hmeaning⟩
  | loneFactor _ ih =>
      obtain ⟨meaning, hmeaning⟩ := ih hinteger
      exact ⟨meaning, .loneFactor hmeaning⟩
  | loneProduct _ ih =>
      obtain ⟨meaning, hmeaning⟩ := ih hinteger
      exact ⟨meaning, .loneProduct hmeaning⟩
  | multiplicative hop _ _ ihleft ihright =>
      obtain ⟨hleft, hsign, hright⟩ := List.forall_mem_append.1 hinteger |>.imp_right
        List.forall_mem_cons.1
      obtain ⟨left, hleft⟩ := ihleft hleft
      obtain ⟨right, hright⟩ := ihright hright
      obtain rfl := hop.resolve_right hsign
      exact ⟨.binary .mul left right, .multiplicative hleft hright⟩
  | additive hop _ _ ihleft ihright =>
      obtain ⟨hleft, -, hright⟩ := List.forall_mem_append.1 hinteger |>.imp_right
        List.forall_mem_cons.1
      obtain ⟨left, hleft⟩ := ihleft hleft
      obtain ⟨right, hright⟩ := ihright hright
      rcases hop with rfl | rfl
      · exact ⟨.binary .add left right, .additive (.inl rfl) hleft hright⟩
      · exact ⟨.binary .sub left right, .additive (.inr rfl) hleft hright⟩

end Grammar

/-- A text that is read as an expression and has no points and no division signs is written as an
expression of whole numbers. -/
theorem exists_isWritten {t : Text} {tree : Expression} (hparse : parseExpression t = .ok tree)
    (hpoint : '.' ∉ t) (hdivision : '/' ∉ t) : ∃ e : IntegerExpression, e.IsWritten t := by
  obtain ⟨tokens, body, trailing, rfl, hspells, htrailing, hderives⟩ := parseExpression_sound hparse
  rw [List.mem_append, not_or] at hpoint hdivision
  obtain ⟨meaning, hmeaning⟩ :=
    hderives.exists_denotes (hspells.forall_isInteger hpoint.1 hdivision.1)
  exact ⟨meaning, tokens, body, trailing, rfl, hspells, htrailing, hmeaning⟩

end Stepwise
