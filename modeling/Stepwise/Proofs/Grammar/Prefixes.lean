import Stepwise.Proofs.Grammar.Expressions

set_option autoImplicit false

/-! # The longest expression at the start of a text

A text that is no expression as a whole may start with one. The recognizers then stop right behind
the longest: if tokens derive an expression and more text follows, the recognizer of their level
takes all of them, and perhaps more, or ends the whole reading (`Reaches`). The induction is on the
derivation. A derivation groups to the left, so what stands in front of an operator is read exactly
(`Derives.recognizes`), and only the operand on the far right meets the text that follows.
-/

namespace Stepwise.Grammar

/-- The reading takes everything in front of the rest, or fails in a way that no chain recovers
from. -/
inductive Reaches (rest : Text) : Except Failure (Expression × Text) → Prop
  | read {e : Expression} {rest' : Text} (h : rest' <:+ rest) : Reaches rest (.ok (e, rest'))
  | tooDeep : Reaches rest (.error .tooDeep)
  | outOfRange : Reaches rest (.error .outOfRange)

theorem Reaches.mono {rest longer : Text} {reading : Except Failure (Expression × Text)}
    (h : Reaches rest reading) (hsuffix : rest <:+ longer) : Reaches longer reading := by
  cases h with
  | read hread => exact .read (hread.trans hsuffix)
  | tooDeep => exact .tooDeep
  | outOfRange => exact .outOfRange

/-- The recognizer of a level, if parentheses may nest so deep. -/
def Level.recognizer (depth : Nat) : Level → Recognizer
  | .sum => Grammar.sum (nested depth)
  | .product => Grammar.product (nested depth)
  | .factor => Grammar.factor (nested depth)
  | .primary => Grammar.primary (nested depth)

/-! ## What is left is the end of the text -/

theorem Reads.suffix {depth : Nat} {level : Level} {t rest : Text} {e : Expression}
    (h : Reads depth level t rest e) : rest <:+ t := by
  obtain ⟨-, body, rfl, -, -⟩ := h
  exact List.suffix_append body rest

theorem soundInside_nested (depth : Nat) : SoundInside depth (nested depth) := by
  intro t rest e h
  cases depth with
  | zero => cases h
  | succ depth => exact ⟨depth, rfl, sum_nested_sound depth h⟩

theorem factor_suffix {depth : Nat} {t rest : Text} {e : Expression}
    (h : factor (nested depth) t = .ok (e, rest)) : rest <:+ t :=
  (factor_sound (soundInside_nested depth) h).suffix

theorem product_suffix {depth : Nat} {t rest : Text} {e : Expression}
    (h : product (nested depth) t = .ok (e, rest)) : rest <:+ t :=
  (operation_sound (productRules depth) (factor_sound (soundInside_nested depth)) h).suffix

/-! ## Numbers -/

theorem scanNumber?_reaches {l : Literal} (h : IsNumber l) (rest : Text) :
    ∃ l' rest', scanNumber? (l.text ++ rest) = some (l', rest') ∧ rest' <:+ rest := by
  have hlead {digits : Text} (hd : AllDigits digits) (t : Text) :
      leadingDigits (digits ++ t) = digits ++ leadingDigits t := List.takeWhile_append_of_pos hd
  have hafter {digits : Text} (hd : AllDigits digits) (t : Text) :
      afterDigits (digits ++ t) = afterDigits t := List.dropWhile_append_of_pos hd
  have hsuffix (t : Text) : afterDigits t <:+ t := List.dropWhile_suffix _
  cases h with
  | @whole digits h hd =>
      simp only [Literal.text, Bool.false_eq_true, if_false, List.nil_append, List.append_nil]
      unfold scanNumber?
      rw [hlead hd, hafter hd]
      split
      · next hnil => exact absurd (List.append_eq_nil_iff.1 hnil).1 h
      · split
        · next tail hpoint =>
            -- more digits may follow, and then a point with more digits
            have htail : tail <:+ rest := (List.suffix_cons '.' tail).trans (hpoint ▸ hsuffix rest)
            exact ⟨_, _, rfl, (hsuffix tail).trans htail⟩
        · exact ⟨_, _, rfl, hsuffix rest⟩
  | @pointed digits fraction h hd hf =>
      have hpoint := noDigitAhead_cons (c := '.') (by decide) (fraction ++ rest)
      simp only [Literal.text, Bool.false_eq_true, if_false, List.nil_append, List.append_assoc,
        List.cons_append]
      unfold scanNumber?
      rw [leadingDigits_append hd hpoint, afterDigits_append hd hpoint]
      split
      · exact absurd rfl h
      · exact ⟨_, _, rfl, by rw [hafter hf]; exact hsuffix rest⟩
  | @fractional fraction h hf =>
      simp only [Literal.text, Bool.false_eq_true, if_false, List.nil_append, List.cons_append]
      unfold scanNumber?
      rw [leadingDigits_eq_nil (by decide)]
      simp only [hlead hf, hafter hf]
      split
      · next hnil => exact absurd (List.append_eq_nil_iff.1 hnil).1 h
      · exact ⟨_, _, rfl, hsuffix rest⟩

theorem primary_reaches {inner : Recognizer} {literal : Literal} {blanks : Text}
    (hblanks : AllBlank blanks) (hform : IsNumber literal) (rest : Text) :
    Reaches rest (primary inner (blanks ++ literal.text ++ rest)) := by
  obtain ⟨literal', rest', hscan, hsuffix⟩ := scanNumber?_reaches hform rest
  simp only [primary, List.append_assoc, Text.skipBlanks_append hblanks, hform.skipBlanks_append,
    hscan]
  split
  · exact .read hsuffix
  · exact .outOfRange

/-! ## Factors and chains -/

section

variable {inner : Recognizer} {blanks rest t : Text}

/-- Where a primary is read no minus sign stands. -/
theorem Reaches.factor (h : Reaches rest (primary inner t)) : Reaches rest (factor inner t) := by
  unfold Grammar.factor
  split
  · next tail hminus =>
      rw [primary_minus hminus] at h
      cases h
  · exact h

theorem Reaches.negated (hblanks : AllBlank blanks) (h : Reaches rest (primary inner t)) :
    Reaches rest (Grammar.factor inner (blanks ++ '-' :: t)) := by
  have hminus : Text.skipBlanks ('-' :: t) = '-' :: t := Text.skipBlanks_cons (by decide) _
  simp only [Grammar.factor, Text.skipBlanks_append hblanks, hminus]
  generalize primary inner t = reading at h
  cases h with
  | read hread => exact .read hread
  | tooDeep => exact .tooDeep
  | outOfRange => exact .outOfRange

end

section

variable {level : Char → Option Operator} {operand : Recognizer} {rest : Text}
  (hoperand : ∀ {t rest e}, operand t = .ok (e, rest) → rest <:+ t)
include hoperand

/-- A chain never gives back what it has read: where no operand follows, it ends. -/
theorem chain_reaches (rounds : Nat) (left : Expression) (t : Text) :
    Reaches t (chain level operand rounds left t) := by
  induction rounds generalizing left t with
  | zero => exact .read (List.suffix_refl t)
  | succ rounds ih =>
      rw [chain]
      split
      · exact .read (List.suffix_refl t)
      · next op tail hnext =>
          obtain ⟨blanks, c, -, rfl, -⟩ := nextOperator?_sound hnext
          split
          · next right tail' hright =>
              have htail : tail <:+ blanks ++ c :: tail :=
                (List.suffix_cons c tail).trans (List.suffix_append blanks _)
              exact (ih _ tail').mono ((hoperand hright).trans htail)
          · exact .read (List.suffix_refl _)
          · next failure hmismatch hfailure =>
              cases failure with
              | mismatch place => exact absurd rfl (hmismatch place)
              | tooDeep => exact .tooDeep
              | outOfRange => exact .outOfRange

theorem Reaches.operation {t : Text} (h : Reaches rest (operand t)) :
    Reaches rest (operation level operand t) := by
  unfold Grammar.operation
  generalize operand t = reading at h
  cases h with
  | @read left rest' hread => exact (chain_reaches hoperand rest'.length left rest').mono hread
  | tooDeep => exact .tooDeep
  | outOfRange => exact .outOfRange

/-- A chain that has come up to an operator reaches as far as the operand on its right. -/
theorem Reaches.chain {op : Operator} {blanks u : Text} {left : Expression} {rounds : Nat}
    (hblanks : AllBlank blanks) (hop : level op.symbol = some op)
    (hrounds : rounds ≥ (blanks ++ op.symbol :: u).length) (h : Reaches rest (operand u)) :
    Reaches rest (chain level operand rounds left (blanks ++ op.symbol :: u)) := by
  cases rounds with
  | zero => simp at hrounds
  | succ rounds =>
      rw [Grammar.chain, nextOperator?_append hblanks (isBlank_symbol op) hop u]
      dsimp only
      generalize operand u = reading at h
      cases h with
      | @read right rest' hread => exact (chain_reaches hoperand rounds _ rest').mono hread
      | tooDeep => exact .tooDeep
      | outOfRange => exact .outOfRange

end

/-! ## Derivations -/

/-- Whatever follows the tokens of a derivation, the recognizer takes all of them. -/
theorem Derives.reaches {depth : Nat} {level : Level} {tokens : List Token} {e : Expression}
    (h : Derives depth level tokens e) {body : Text} (hspells : Spells tokens body) (rest : Text) :
    Reaches rest (level.recognizer depth (body ++ rest)) := by
  induction h generalizing body rest with
  | @number depth literal hfinite =>
      cases hspells with
      | cons hblanks hform hnil =>
          cases hnil
          rw [List.append_nil]
          exact primary_reaches hblanks hform rest
  | @parentheses depth tokens e h ih =>
      have hread := primary_enclosed hspells rest fun hu => h.recognizes hu
      rw [Level.recognizer, hread]
      exact .read (List.suffix_refl rest)
  | unsigned h ih => exact (ih hspells rest).factor
  | @negated depth tokens e h ih =>
      cases hspells with
      | @cons _ _ blanks u hblanks hform hu =>
          have hfactor := (ih hu rest).negated hblanks
          simpa [Level.recognizer, Token.text, Operator.symbol] using hfactor
  | loneFactor h ih => exact (ih hspells rest).operation factor_suffix
  | @multiplicative depth op tokens operand left right hop hleft hright ihleft ihright =>
      obtain ⟨u, blanks, v, rfl, hblanks, hu, hv⟩ := hspells.exists_operator
      have hfollows : Follows .product (blanks ++ op.symbol :: (v ++ rest)) :=
        .append hblanks.allWhiteSpace (numberEnds_symbol op _)
      obtain ⟨rounds, hrounds, hchain⟩ := hleft.recognizes hu _ hfollows
      have hreaches : Reaches rest (Grammar.chain multiplicative? (Grammar.factor (nested depth))
          rounds left (blanks ++ op.symbol :: (v ++ rest))) :=
        .chain factor_suffix hblanks (multiplicative?_eq_some_iff.2 ⟨hop, rfl⟩) hrounds
          (ihright hv rest)
      rw [← hchain] at hreaches
      simpa [Level.recognizer] using hreaches
  | loneProduct h ih => exact (ih hspells rest).operation product_suffix
  | @additive depth op tokens operand left right hop hleft hright ihleft ihright =>
      obtain ⟨u, blanks, v, rfl, hblanks, hu, hv⟩ := hspells.exists_operator
      have hstop : multiplicative? op.symbol = none := by
        rcases hop with rfl | rfl <;> decide
      have hfollows : Follows .sum (blanks ++ op.symbol :: (v ++ rest)) :=
        ⟨.append hblanks.allWhiteSpace (numberEnds_symbol op _),
          nextOperator?_eq_none hblanks (isBlank_symbol op) hstop _⟩
      obtain ⟨rounds, hrounds, hchain⟩ := hleft.recognizes hu _ hfollows
      have hreaches : Reaches rest (Grammar.chain additive? (Grammar.product (nested depth))
          rounds left (blanks ++ op.symbol :: (v ++ rest))) :=
        .chain product_suffix hblanks (additive?_eq_some_iff.2 ⟨hop, rfl⟩) hrounds
          (ihright hv rest)
      rw [← hchain] at hreaches
      simpa [Level.recognizer] using hreaches

end Stepwise.Grammar

namespace Stepwise

open Grammar

/-! ## Texts that start with an expression -/

/-- The text is read as an expression. -/
def IsExpression (t : Text) : Prop := ∃ e, parseExpression t = .ok e

/-- The message of a text that goes on behind an expression. -/
def leftoverMessage (left : Text) : String := "unexpected input '" ++ String.ofList left ++ "'"

/-- The ways in which the reading of a text can end that starts with an expression. -/
inductive EndsBehind : Except ExpressionError Expression → Prop
  | whole (e : Expression) : EndsBehind (.ok e)
  | unsupported (c : Char) (position : Nat) : EndsBehind (.error (.unsupportedCharacter c position))
  | tooDeep : EndsBehind (.error (.tooDeep maxNesting))
  | outOfRange : EndsBehind (.error .numberOutOfRange)
  | leftover {left : Text} (h : left ≠ []) :
      EndsBehind (.error (.malformed (leftoverMessage left)))

theorem Text.trimEnd_append_prefix {t after : Text} (h : AllWhiteSpace after) :
    Text.trimEnd (t ++ after) <+: t := by
  have hreverse : AllWhiteSpace after.reverse := fun c hc => h c (List.mem_reverse.1 hc)
  rw [Text.trimEnd, List.reverse_append, List.dropWhile_append_of_pos hreverse,
    ← List.reverse_suffix, List.reverse_reverse]
  exact List.dropWhile_suffix _

/-! ### Messages -/

theorem head?_toList_append {s : String} {c : Char} (h : s.toList.head? = some c) (t : String) :
    (s ++ t).toList.head? = some c := by
  rw [String.toList_append, List.head?_append, h, Option.some_or]

theorem head?_toList_leftoverMessage (left : Text) :
    (leftoverMessage left).toList.head? = some 'u' :=
  head?_toList_append (head?_toList_append (by decide) _) _

theorem head?_toList_message (place : Mismatch) : place.message.toList.head? = some 'P' :=
  head?_toList_append (head?_toList_append (head?_toList_append
    (head?_toList_append (by decide) _) _) _) _

theorem leftoverMessage_injective : Function.Injective leftoverMessage := by
  intro left left' h
  have hopened := (String.append_left_inj _).1 h
  exact String.ofList_injective ((String.append_right_inj _).1 hopened)

/-- No other failure is worded like a leftover. -/
theorem leftover_of_ofSyntax {cause : SyntaxError} {left : Text}
    (h : ExpressionError.ofSyntax cause = .malformed (leftoverMessage left)) :
    cause = .leftover left := by
  -- the case split looks at the kind of the failure only, never into the wording
  generalize hmessage : leftoverMessage left = message at h
  cases cause with
  | mismatch place =>
      cases h
      have hhead := head?_toList_leftoverMessage left
      rw [hmessage, head?_toList_message] at hhead
      cases hhead
  | leftover left' =>
      cases h
      exact congrArg SyntaxError.leftover (leftoverMessage_injective hmessage.symm)
  | tooDeep => cases h
  | outOfRange => cases h

/-- The gate refuses a text without a word of what is left over. -/
theorem parseArithmetic_of_leftover {text left : Text}
    (h : parseExpression text = .error (.malformed (leftoverMessage left))) :
    parseArithmetic text = .error (.leftover left) := by
  unfold parseExpression at h
  split at h
  · next refusal hgate =>
      generalize leftoverMessage left = message at h
      cases h
      unfold checkCharacters at hgate
      split at hgate
      · cases hgate
      · split at hgate <;> cases hgate
  · split at h
    · next cause hcause => rw [hcause, leftover_of_ofSyntax (Except.error.inj h)]
    · cases h

theorem expression_of_leftover {text left : Text}
    (h : parseArithmetic text = .error (.leftover left)) :
    ∃ e rest, expression text = .ok (e, rest) ∧ Text.trim rest = left ∧ left ≠ [] := by
  unfold parseArithmetic at h
  split at h
  · cases h
  · cases h
  · cases h
  · next e rest hread =>
      split at h
      · cases h
      · next hne =>
          cases h
          exact ⟨e, rest, hread, rfl, hne⟩

/-! ### The longest one -/

/-- Of a text that starts with an expression, the recognizer takes at least this expression. -/
theorem IsExpression.reaches {t : Text} (h : IsExpression t) (rest : Text) :
    ∃ body trailing, t = body ++ trailing ∧ AllWhiteSpace trailing ∧
      Reaches (trailing ++ rest) (expression (t ++ rest)) := by
  obtain ⟨e, hparse⟩ := h
  obtain ⟨tokens, body, trailing, rfl, hspells, htrailing, hderives⟩ := parseExpression_sound hparse
  refine ⟨body, trailing, rfl, htrailing, ?_⟩
  rw [List.append_assoc]
  exact hderives.reaches hspells (trailing ++ rest)

/-- What the recognizer takes is an expression by itself. -/
theorem exists_isExpression_of_expression {text rest : Text} {e : Expression}
    (h : expression text = .ok (e, rest)) : ∃ p, text = p ++ rest ∧ IsExpression p := by
  obtain ⟨tokens, p, rfl, hspells, hderives⟩ := sum_nested_sound maxNesting h
  refine ⟨p, rfl, e, ?_⟩
  simpa using parseExpression_complete hspells (List.forall_mem_nil _) hderives

/-- What is left over stands behind the longest expression at the start of the text. -/
theorem exists_longest_of_leftover {text left : Text}
    (h : parseExpression text = .error (.malformed (leftoverMessage left))) :
    ∃ p s, text = p ++ s ∧ Text.trim s = left ∧ left ≠ [] ∧ IsExpression p ∧
      ∀ q, q <+: text → IsExpression q → Text.trimEnd q <+: p := by
  obtain ⟨e, s, hread, htrim, hne⟩ := expression_of_leftover (parseArithmetic_of_leftover h)
  obtain ⟨p, htext, hp⟩ := exists_isExpression_of_expression hread
  refine ⟨p, s, htext, htrim, hne, hp, ?_⟩
  rintro q ⟨u, hq⟩ hexpression
  obtain ⟨body, trailing, rfl, htrailing, hreaches⟩ := hexpression.reaches u
  rw [hq, hread] at hreaches
  cases hreaches with
  | read hrest =>
      -- the rest is an end of what follows the body, so the body is a start of the prefix
      obtain ⟨between, hbetween⟩ := hrest
      have hbody : p = body ++ between := by
        refine (List.append_left_inj s).1 ?_
        rw [← htext, ← hq, List.append_assoc, List.append_assoc, hbetween]
      rw [hbody]
      exact (Text.trimEnd_append_prefix htrailing).trans (List.prefix_append body between)

/-- An expression holds something besides white space. -/
theorem IsExpression.not_allWhiteSpace {t : Text} (h : IsExpression t) : ¬ AllWhiteSpace t := by
  obtain ⟨e, hparse⟩ := h
  obtain ⟨tokens, body, trailing, rfl, hspells, -, hderives⟩ := parseExpression_sound hparse
  intro hwhite
  exact hspells.not_allWhiteSpace hderives.tokens_ne_nil fun c hc =>
    hwhite c (List.mem_append_left trailing hc)

theorem endsBehind_parseArithmetic {text : Text} {rest : Text}
    (h : Reaches rest (expression text)) :
    EndsBehind ((parseArithmetic text).mapError ExpressionError.ofSyntax) := by
  unfold parseArithmetic
  generalize expression text = reading at h
  cases h with
  | tooDeep => exact .tooDeep
  | outOfRange => exact .outOfRange
  | @read e rest' hread =>
      dsimp only
      split
      · exact .whole e
      · next hne => exact .leftover hne

/-- The gate and the recognizers end a text that starts with an expression in one of these ways. -/
theorem endsBehind_of_prefix {text q : Text} (hstart : q <+: text) (h : IsExpression q) :
    EndsBehind (parseExpression text) := by
  obtain ⟨u, rfl⟩ := hstart
  obtain ⟨body, trailing, -, -, hreaches⟩ := h.reaches u
  have hends := endsBehind_parseArithmetic hreaches
  unfold parseExpression checkCharacters
  have hne : Text.trim (q ++ u) ≠ [] := by
    intro htrim
    exact h.not_allWhiteSpace fun c hc =>
      (Text.trim_eq_nil_iff _).1 htrim c (List.mem_append_left u hc)
  rw [if_neg hne]
  cases firstForeign? (q ++ u) with
  | some found => exact .unsupported found.1 found.2
  | none =>
      dsimp only
      generalize parseArithmetic (q ++ u) = reading at hends
      cases reading with
      | error cause => exact hends
      | ok e => exact hends

/-- A syntax error is reported right behind the longest expression at the start of the text: if
the message names what is left over, then this is what follows an expression, without white space
around, and no start of the text that goes further is an expression. If any start of the text is
an expression, no other syntax error is reported. -/
theorem leftover_follows_longest_prefix (text : Text) :
    (∀ left, parseExpression text = .error (.malformed (leftoverMessage left)) →
      ∃ p s, text = p ++ s ∧ Text.trim s = left ∧ left ≠ [] ∧ IsExpression p ∧
        ∀ q, q <+: text → IsExpression q → Text.trimEnd q <+: p) ∧
    (∀ q, q <+: text → IsExpression q → EndsBehind (parseExpression text)) :=
  ⟨fun _ h => exists_longest_of_leftover h, fun _ hstart h => endsBehind_of_prefix hstart h⟩

/-- A factor is missing behind `* (`, so the reading ends in front of the `*`. -/
theorem leftover_follows_longest_prefix_sum :
    parseExpression "1 + 2 * (3 -".toList = .error (.malformed (leftoverMessage "* (3 -".toList)) ∧
      "1 + 2 ".toList <+: "1 + 2 * (3 -".toList ∧ IsExpression "1 + 2 ".toList ∧
      (∃ p s, "1 + 2 * (3 -".toList = p ++ s ∧ Text.trim s = "* (3 -".toList ∧
        "* (3 -".toList ≠ [] ∧ IsExpression p ∧
        ∀ q, q <+: "1 + 2 * (3 -".toList → IsExpression q → Text.trimEnd q <+: p) ∧
      EndsBehind (parseExpression "1 + 2 * (3 -".toList) := by
  have hleftover : parseExpression "1 + 2 * (3 -".toList =
      .error (.malformed (leftoverMessage "* (3 -".toList)) := by decide +kernel
  have hstart : "1 + 2 ".toList <+: "1 + 2 * (3 -".toList := by decide
  have hread : (parseExpression "1 + 2 ".toList).isOk = true := by decide +kernel
  have hexpression : IsExpression "1 + 2 ".toList := by
    cases hparse : parseExpression "1 + 2 ".toList with
    | ok e => exact ⟨e, hparse⟩
    | error refusal => rw [hparse] at hread; cases hread
  have hlongest := leftover_follows_longest_prefix "1 + 2 * (3 -".toList
  exact ⟨hleftover, hstart, hexpression, hlongest.1 _ hleftover,
    hlongest.2 _ hstart hexpression⟩

end Stepwise
