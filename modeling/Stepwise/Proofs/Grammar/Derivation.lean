import Stepwise.Expression.Grammar
import Stepwise.Proofs.Scanning

set_option autoImplicit false

/-! # Tokens and derivations

The grammar of expressions without a recognizer: which texts a list of tokens is written as
(`Spells`), and which lists of tokens derive an expression (`Derives`). Both are relations, so
that nothing in them depends on the order in which a recognizer looks at a text.
-/

namespace Stepwise.Grammar

/-! ## Tokens -/

/-- A token of an expression. -/
inductive Token
  | number (literal : Literal)
  | operator (op : Operator)
  | opening
  | closing
  deriving DecidableEq, Repr

/-- The shapes `d+`, `d+.d*` and `.d+` of a number. -/
inductive IsNumber : Literal → Prop
  | whole {digits : Text} (h : digits ≠ []) (hd : AllDigits digits) :
      IsNumber ⟨false, digits, none⟩
  | pointed {digits fraction : Text} (h : digits ≠ []) (hd : AllDigits digits)
      (hf : AllDigits fraction) : IsNumber ⟨false, digits, some fraction⟩
  | fractional {fraction : Text} (h : fraction ≠ []) (hf : AllDigits fraction) :
      IsNumber ⟨false, [], some fraction⟩

/-- The token is a symbol, or a number of one of the three shapes. -/
def Token.WellFormed : Token → Prop
  | .number literal => IsNumber literal
  | _ => True

/-- The text of a token. -/
def Token.text : Token → Text
  | .number literal => literal.text
  | .operator op => [op.symbol]
  | .opening => ['(']
  | .closing => [')']

/-- The text is the tokens in order, each one with blanks in front of it or none. -/
inductive Spells : List Token → Text → Prop
  | nil : Spells [] []
  | cons {token : Token} {tokens : List Token} {blanks rest : Text} (hblanks : AllBlank blanks)
      (hform : token.WellFormed) (hrest : Spells tokens rest) :
      Spells (token :: tokens) (blanks ++ token.text ++ rest)

theorem Spells.singleton {token : Token} {blanks : Text} (hblanks : AllBlank blanks)
    (hform : token.WellFormed) : Spells [token] (blanks ++ token.text) := by
  simpa using Spells.cons hblanks hform .nil

theorem Spells.append {tokens others : List Token} {t u : Text} (h : Spells tokens t)
    (hothers : Spells others u) : Spells (tokens ++ others) (t ++ u) := by
  induction h with
  | nil => exact hothers
  | cons hblanks hform hrest ih =>
      rw [List.append_assoc]
      exact .cons hblanks hform ih

/-- Well-formed tokens can be written without blanks. -/
theorem spells_flatMap_text {tokens : List Token} (h : ∀ token ∈ tokens, token.WellFormed) :
    Spells tokens (tokens.flatMap Token.text) := by
  induction tokens with
  | nil => exact .nil
  | cons token tokens ih =>
      obtain ⟨hform, hrest⟩ := List.forall_mem_cons.1 h
      exact Spells.cons (List.forall_mem_nil _) hform (ih hrest)

/-- The text of a list of tokens in two parts falls into the texts of the parts. -/
theorem Spells.exists_append {tokens others : List Token} {t : Text}
    (h : Spells (tokens ++ others) t) :
    ∃ u v, t = u ++ v ∧ Spells tokens u ∧ Spells others v := by
  induction tokens generalizing t with
  | nil => exact ⟨[], t, rfl, .nil, h⟩
  | cons token tokens ih =>
      cases h with
      | @cons _ _ blanks rest hblanks hform hrest =>
          obtain ⟨u, v, rfl, hu, hv⟩ := ih hrest
          exact ⟨blanks ++ token.text ++ u, v, by simp, .cons hblanks hform hu, hv⟩

theorem Spells.exists_operator {tokens operand : List Token} {op : Operator} {t : Text}
    (h : Spells (tokens ++ .operator op :: operand) t) :
    ∃ u blanks v, t = u ++ (blanks ++ op.symbol :: v) ∧ AllBlank blanks ∧ Spells tokens u ∧
      Spells operand v := by
  obtain ⟨u, w, rfl, hu, hw⟩ := h.exists_append
  cases hw with
  | @cons _ _ blanks v hblanks hform hv =>
      exact ⟨u, blanks, v, by simp [Token.text], hblanks, hu, hv⟩

/-! ### The characters of tokens -/

theorem IsNumber.digit_or_point {l : Literal} (h : IsNumber l) :
    ∀ c ∈ l.text, c.isDigit = true ∨ c = '.' := by
  intro c hc
  cases h with
  | whole h hd => exact .inl (hd c (by simpa [Literal.text] using hc))
  | pointed h hd hf =>
      simp only [Literal.text, Bool.false_eq_true, if_false, List.nil_append, List.mem_append,
        List.mem_cons] at hc
      rcases hc with hc | rfl | hc
      · exact .inl (hd c hc)
      · exact .inr rfl
      · exact .inl (hf c hc)
  | fractional h hf =>
      simp only [Literal.text, Bool.false_eq_true, if_false, List.nil_append, List.mem_cons] at hc
      rcases hc with rfl | hc
      · exact .inr rfl
      · exact .inl (hf c hc)

theorem IsNumber.allArithmetic {l : Literal} (h : IsNumber l) :
    ∀ c ∈ l.text, isArithmeticChar c = true := by
  intro c hc
  rcases h.digit_or_point c hc with hdigit | rfl
  · simp [isArithmeticChar, hdigit]
  · decide

theorem IsNumber.text_ne_nil {l : Literal} (h : IsNumber l) : l.text ≠ [] := by
  cases h <;> simp_all [Literal.text]

theorem IsNumber.exists_head {l : Literal} (h : IsNumber l) :
    ∃ c rest, l.text = c :: rest ∧ (c.isDigit = true ∨ c = '.') := by
  obtain ⟨c, rest, htext⟩ := List.exists_cons_of_ne_nil h.text_ne_nil
  exact ⟨c, rest, htext, h.digit_or_point c (by simp [htext])⟩

theorem isArithmeticChar_symbol (op : Operator) : isArithmeticChar op.symbol = true := by
  cases op <;> decide

theorem Token.WellFormed.allArithmetic {token : Token} (h : token.WellFormed) :
    ∀ c ∈ token.text, isArithmeticChar c = true := by
  cases token with
  | number literal => exact IsNumber.allArithmetic h
  | operator op => simp [Token.text, isArithmeticChar_symbol]
  | opening => simp [Token.text, isArithmeticChar]
  | closing => simp [Token.text, isArithmeticChar]

theorem Spells.allArithmetic {tokens : List Token} {t : Text} (h : Spells tokens t) :
    ∀ c ∈ t, isArithmeticChar c = true := by
  induction h with
  | nil => simp
  | cons hblanks hform hrest ih =>
      intro c hc
      rw [List.mem_append, List.mem_append] at hc
      rcases hc with (hc | hc) | hc
      · simp [isArithmeticChar, isWhiteSpace_of_isBlank (hblanks c hc)]
      · exact hform.allArithmetic c hc
      · exact ih c hc

theorem Token.WellFormed.text_ne_nil {token : Token} (h : token.WellFormed) :
    token.text ≠ [] := by
  cases token with
  | number literal => exact IsNumber.text_ne_nil h
  | operator op => exact List.cons_ne_nil _ _
  | opening => exact List.cons_ne_nil _ _
  | closing => exact List.cons_ne_nil _ _

/-- No character of a token is white space. -/
theorem Token.WellFormed.noWhiteSpace {token : Token} (h : token.WellFormed) :
    ∀ c ∈ token.text, isWhiteSpace c = false := by
  cases token with
  | number literal =>
      intro c hc
      rcases IsNumber.digit_or_point h c hc with hdigit | rfl
      · exact not_isWhiteSpace_of_isDigit hdigit
      · decide
  | operator op => exact List.forall_mem_singleton.2 (by cases op <;> decide)
  | opening => exact List.forall_mem_singleton.2 (by decide)
  | closing => exact List.forall_mem_singleton.2 (by decide)

/-- A token starts with a character that is no white space. -/
theorem Token.WellFormed.exists_head {token : Token} (h : token.WellFormed) :
    ∃ c rest, token.text = c :: rest ∧ isWhiteSpace c = false := by
  obtain ⟨c, rest, htext⟩ := List.exists_cons_of_ne_nil h.text_ne_nil
  exact ⟨c, rest, htext, h.noWhiteSpace c (by simp [htext])⟩

theorem Spells.not_allWhiteSpace {tokens : List Token} {t : Text} (h : Spells tokens t)
    (hne : tokens ≠ []) : ¬ AllWhiteSpace t := by
  intro hwhite
  cases h with
  | nil => exact hne rfl
  | cons hblanks hform hrest =>
      obtain ⟨c, rest, htext, hc⟩ := hform.exists_head
      have := hwhite c (by simp [htext])
      rw [hc] at this
      cases this

/-! ## Derivations -/

/-- The levels of the grammar, from the loosest one to the tightest one. -/
inductive Level
  | sum
  | product
  | factor
  | primary
  deriving DecidableEq, Repr

/-- The tokens derive the expression at a level, with parentheses that nest at most so deep.
Operators of one level group to the left, and parentheses leave no trace in the expression. -/
inductive Derives : Nat → Level → List Token → Expression → Prop
  | number {depth : Nat} {literal : Literal} (h : literal.toBinary64.isFinite = true) :
      Derives depth .primary [.number literal] (.number literal.toBinary64)
  | parentheses {depth : Nat} {tokens : List Token} {e : Expression}
      (h : Derives depth .sum tokens e) :
      Derives (depth + 1) .primary (.opening :: (tokens ++ [.closing])) e
  | unsigned {depth : Nat} {tokens : List Token} {e : Expression}
      (h : Derives depth .primary tokens e) : Derives depth .factor tokens e
  | negated {depth : Nat} {tokens : List Token} {e : Expression}
      (h : Derives depth .primary tokens e) :
      Derives depth .factor (.operator .sub :: tokens) (.negation e)
  | loneFactor {depth : Nat} {tokens : List Token} {e : Expression}
      (h : Derives depth .factor tokens e) : Derives depth .product tokens e
  | multiplicative {depth : Nat} {op : Operator} {tokens operand : List Token}
      {left right : Expression} (hop : op = .mul ∨ op = .div)
      (hleft : Derives depth .product tokens left) (hright : Derives depth .factor operand right) :
      Derives depth .product (tokens ++ .operator op :: operand) (.binary op left right)
  | loneProduct {depth : Nat} {tokens : List Token} {e : Expression}
      (h : Derives depth .product tokens e) : Derives depth .sum tokens e
  | additive {depth : Nat} {op : Operator} {tokens operand : List Token}
      {left right : Expression} (hop : op = .add ∨ op = .sub)
      (hleft : Derives depth .sum tokens left) (hright : Derives depth .product operand right) :
      Derives depth .sum (tokens ++ .operator op :: operand) (.binary op left right)

theorem Derives.tokens_ne_nil {depth : Nat} {level : Level} {tokens : List Token}
    {e : Expression} (h : Derives depth level tokens e) : tokens ≠ [] := by
  induction h with
  | number | parentheses | negated => simp
  | unsigned _ ih | loneFactor _ ih | loneProduct _ ih => exact ih
  | multiplicative | additive => simp

end Stepwise.Grammar
