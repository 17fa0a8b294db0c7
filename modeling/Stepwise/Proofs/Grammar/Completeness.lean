import Stepwise.Proofs.Grammar.Soundness

set_option autoImplicit false

/-! # What is derived is recognized

The induction is on the derivation. A derivation of a sum or a product groups to the left,
while its recognizer reads an operand and then goes on in a loop with what it has so far. So
the invariant of these levels is about a loop that has not ended: after the text of the
derivation, the recognizer is in its chain with the derived expression on the left, and has
rounds enough for the rest (`Recognizes`). What may stand behind the text of a derivation is
`Follows`.
-/

namespace Stepwise.Grammar

/-! ## What follows -/

/-- The text does not continue a number. -/
def NumberEnds (t : Text) : Prop := ∀ c rest, t = c :: rest → c.isDigit = false ∧ c ≠ '.'

theorem NumberEnds.noDigitAhead {t : Text} (h : NumberEnds t) : NoDigitAhead t :=
  fun c rest ht => (h c rest ht).1

theorem numberEnds_nil : NumberEnds [] := by
  intro c rest h
  cases h

theorem numberEnds_cons {c : Char} (hdigit : c.isDigit = false) (hpoint : c ≠ '.') (t : Text) :
    NumberEnds (c :: t) := by
  intro d rest h
  cases h
  exact ⟨hdigit, hpoint⟩

/-- White space ends a number. -/
theorem NumberEnds.append {t u : Text} (ht : AllWhiteSpace t) (hu : NumberEnds u) :
    NumberEnds (t ++ u) := by
  cases t with
  | nil => exact hu
  | cons c t =>
      have hc : isWhiteSpace c = true := ht c (by simp)
      refine numberEnds_cons (not_isDigit_of_isWhiteSpace hc) ?_ _
      rintro rfl
      cases hc

/-- White space holds no operator. -/
theorem nextOperator?_of_allWhiteSpace {level : Char → Option Operator} {depth : Nat}
    {outer inner : Level} (rules : ChainRules level depth outer inner) {t : Text}
    (h : AllWhiteSpace t) : nextOperator? level t = none := by
  cases hnext : nextOperator? level t with
  | none => rfl
  | some found =>
      obtain ⟨op, rest⟩ := found
      obtain ⟨blanks, c, -, ht, hop⟩ := nextOperator?_sound hnext
      have hc : isWhiteSpace c = true := h c (by simp [ht])
      have hsymbol : isWhiteSpace op.symbol = false := by cases op <;> decide
      rw [rules.symbol hop, hc] at hsymbol
      cases hsymbol

/-- What may stand behind the text of a level. A sum ends with a product, so no operator of
multiplication or division may follow it. -/
def Follows : Level → Text → Prop
  | .sum, rest => NumberEnds rest ∧ nextOperator? multiplicative? rest = none
  | _, rest => NumberEnds rest

/-! ## Numbers -/

theorem scanNumber?_complete {l : Literal} {rest : Text} (h : IsNumber l)
    (hrest : NumberEnds rest) : scanNumber? (l.text ++ rest) = some (l, rest) := by
  cases h with
  | @whole digits h hd =>
      have hlead := leadingDigits_append hd hrest.noDigitAhead
      have hafter := afterDigits_append hd hrest.noDigitAhead
      simp only [Literal.text, Bool.false_eq_true, if_false, List.nil_append, List.append_nil]
      unfold scanNumber?
      rw [hlead, hafter]
      split
      · exact absurd rfl h
      · split
        · exact absurd rfl (hrest '.' _ rfl).2
        · rfl
  | @pointed digits fraction h hd hf =>
      have hpoint := noDigitAhead_cons (c := '.') (by decide) (fraction ++ rest)
      simp only [Literal.text, Bool.false_eq_true, if_false, List.nil_append, List.append_assoc,
        List.cons_append]
      unfold scanNumber?
      rw [leadingDigits_append hd hpoint, afterDigits_append hd hpoint]
      split
      · exact absurd rfl h
      · simp only [leadingDigits_append hf hrest.noDigitAhead,
          afterDigits_append hf hrest.noDigitAhead]
  | @fractional fraction h hf =>
      simp only [Literal.text, Bool.false_eq_true, if_false, List.nil_append, List.cons_append]
      unfold scanNumber?
      rw [leadingDigits_eq_nil (by decide)]
      simp only [leadingDigits_append hf hrest.noDigitAhead,
        afterDigits_append hf hrest.noDigitAhead]

/-- Only a digit or a point starts a number. -/
theorem scanNumber?_eq_none {c : Char} (hdigit : c.isDigit = false) (hpoint : c ≠ '.')
    (t : Text) : scanNumber? (c :: t) = none := by
  unfold scanNumber?
  rw [leadingDigits_eq_nil hdigit]
  split
  · split
    · next h => cases h; exact absurd rfl hpoint
    · rfl
  · next h => exact absurd rfl h

/-! ## Chains -/

section

variable {level : Char → Option Operator} {operand : Recognizer}

theorem chain_stop {rounds : Nat} {left : Expression} {t : Text}
    (h : nextOperator? level t = none) : chain level operand rounds left t = .ok (left, t) := by
  cases rounds with
  | zero => rfl
  | succ rounds => rw [chain, h]

theorem nextOperator?_append {c : Char} {op : Operator} {blanks : Text} (hblanks : AllBlank blanks)
    (hc : isBlank c = false) (hop : level c = some op) (rest : Text) :
    nextOperator? level (blanks ++ c :: rest) = some (op, rest) := by
  rw [nextOperator?, Text.skipBlanks_append hblanks, Text.skipBlanks_cons hc]
  simp [hop]

theorem nextOperator?_eq_none {c : Char} {blanks : Text} (hblanks : AllBlank blanks)
    (hc : isBlank c = false) (hop : level c = none) (rest : Text) :
    nextOperator? level (blanks ++ c :: rest) = none := by
  rw [nextOperator?, Text.skipBlanks_append hblanks, Text.skipBlanks_cons hc]
  simp [hop]

theorem chain_step {rounds : Nat} {left right : Expression} {op : Operator} {t u rest : Text}
    (hnext : nextOperator? level t = some (op, u)) (hright : operand u = .ok (right, rest)) :
    chain level operand (rounds + 1) left t =
      chain level operand rounds (.binary op left right) rest := by
  rw [chain, hnext]
  simp only [hright]

end

theorem isBlank_symbol (op : Operator) : isBlank op.symbol = false := by
  cases op <;> decide

theorem numberEnds_symbol (op : Operator) (t : Text) : NumberEnds (op.symbol :: t) :=
  numberEnds_cons (by cases op <;> decide) (by cases op <;> decide) t

/-! ## Recognizers -/

/-- The recognizer of a level takes the text up to the rest. A chain may still go on there. -/
def Recognizes (depth : Nat) : Level → Text → Text → Expression → Prop
  | .primary, t, rest, e => primary (nested depth) t = .ok (e, rest)
  | .factor, t, rest, e => factor (nested depth) t = .ok (e, rest)
  | .product, t, rest, e => ∃ rounds ≥ rest.length,
      product (nested depth) t = chain multiplicative? (factor (nested depth)) rounds e rest
  | .sum, t, rest, e => ∃ rounds ≥ rest.length,
      sum (nested depth) t = chain additive? (product (nested depth)) rounds e rest

theorem Recognizes.product_ok {depth : Nat} {t rest : Text} {e : Expression}
    (h : Recognizes depth .product t rest e) (hstop : nextOperator? multiplicative? rest = none) :
    product (nested depth) t = .ok (e, rest) := by
  obtain ⟨rounds, -, hchain⟩ := h
  rw [hchain, chain_stop hstop]

theorem Recognizes.sum_ok {depth : Nat} {t rest : Text} {e : Expression}
    (h : Recognizes depth .sum t rest e) (hstop : nextOperator? additive? rest = none) :
    sum (nested depth) t = .ok (e, rest) := by
  obtain ⟨rounds, -, hchain⟩ := h
  rw [hchain, chain_stop hstop]

/-! ### Primaries and factors -/

section

variable {inner : Recognizer} {blanks rest : Text}

/-- No blank stands in front of a number. -/
theorem IsNumber.skipBlanks_append {literal : Literal} (h : IsNumber literal) (rest : Text) :
    Text.skipBlanks (literal.text ++ rest) = literal.text ++ rest := by
  obtain ⟨c, tail, htext, hc⟩ := h.exists_head
  rw [htext]
  refine Text.skipBlanks_cons ?_ _
  rcases hc with hc | rfl
  · exact not_isBlank_of_isDigit hc
  · decide

theorem primary_number {literal : Literal} (hblanks : AllBlank blanks) (hform : IsNumber literal)
    (hfinite : literal.toBinary64.isFinite = true) (hrest : NumberEnds rest) :
    primary inner (blanks ++ literal.text ++ rest) = .ok (.number literal.toBinary64, rest) := by
  simp only [primary, List.append_assoc, Text.skipBlanks_append hblanks, hform.skipBlanks_append,
    scanNumber?_complete hform hrest, hfinite, if_true]

theorem primary_parentheses {gap t : Text} {e : Expression} (hblanks : AllBlank blanks)
    (hgap : AllBlank gap) (h : inner t = .ok (e, gap ++ ')' :: rest)) :
    primary inner (blanks ++ '(' :: t) = .ok (e, rest) := by
  have hopening : Text.skipBlanks ('(' :: t) = '(' :: t := Text.skipBlanks_cons (by decide) _
  have hclosing : Text.skipBlanks (')' :: rest) = ')' :: rest :=
    Text.skipBlanks_cons (by decide) _
  simp only [primary, Text.skipBlanks_append hblanks, hopening,
    scanNumber?_eq_none (c := '(') (by decide) (by decide), h, Text.skipBlanks_append hgap,
    hclosing, expectChar, if_true]

/-- Where a minus sign stands no primary does. -/
theorem primary_minus {t tail : Text} (h : Text.skipBlanks t = '-' :: tail) :
    primary inner t = .error (.mismatch ⟨'-' :: tail, .character⟩) := by
  simp only [primary, h, scanNumber?_eq_none (c := '-') (by decide) (by decide)]
  rfl

theorem factor_of_primary {t : Text} {e : Expression} (h : primary inner t = .ok (e, rest)) :
    factor inner t = .ok (e, rest) := by
  unfold factor
  split
  · next tail hminus =>
      rw [primary_minus hminus] at h
      cases h
  · exact h

theorem factor_negated {t : Text} {e : Expression} (hblanks : AllBlank blanks)
    (h : primary inner t = .ok (e, rest)) :
    factor inner (blanks ++ '-' :: t) = .ok (.negation e, rest) := by
  have hminus : Text.skipBlanks ('-' :: t) = '-' :: t := Text.skipBlanks_cons (by decide) _
  simp only [factor, Text.skipBlanks_append hblanks, hminus, h]

end

/-! ### Derivations -/

/-- One more round of a chain, when the chain has come up to the operator. -/
theorem chain_more {level : Char → Option Operator} {operand : Recognizer}
    {op : Operator} {blanks u rest : Text} {left right : Expression} {rounds : Nat}
    (hblanks : AllBlank blanks) (hop : level op.symbol = some op)
    (hrounds : rounds ≥ (blanks ++ op.symbol :: u).length) (hrest : rest.length ≤ u.length)
    (hright : operand u = .ok (right, rest)) :
    ∃ more ≥ rest.length, chain level operand rounds left (blanks ++ op.symbol :: u) =
      chain level operand more (.binary op left right) rest := by
  cases rounds with
  | zero => simp at hrounds
  | succ rounds =>
      have hnext := nextOperator?_append hblanks (isBlank_symbol op) hop u
      refine ⟨rounds, ?_, chain_step hnext hright⟩
      simp only [List.length_append, List.length_cons] at hrounds
      omega

/-- A sum between parentheses is read as a primary, whatever follows it: the closing parenthesis
ends the sum, as it is no operator. -/
theorem primary_enclosed {depth : Nat} {tokens : List Token} {e : Expression} {body : Text}
    (hspells : Spells (.opening :: (tokens ++ [.closing])) body) (rest : Text)
    (hsum : ∀ {u : Text}, Spells tokens u → ∀ rest, Follows .sum rest →
      Recognizes depth .sum (u ++ rest) rest e) :
    primary (nested (depth + 1)) (body ++ rest) = .ok (e, rest) := by
  cases hspells with
  | @cons _ _ blanks inside hblanks hform hinside =>
      obtain ⟨u, v, rfl, hu, hv⟩ := hinside.exists_append
      cases hv with
      | @cons _ _ gap _ hgap _ hnil =>
          cases hnil
          have hstop (level : Char → Option Operator) (hlevel : level ')' = none) :
              nextOperator? level (gap ++ ')' :: rest) = none :=
            nextOperator?_eq_none hgap (by decide) hlevel rest
          have hfollows : Follows .sum (gap ++ ')' :: rest) :=
            ⟨.append hgap.allWhiteSpace (numberEnds_cons (by decide) (by decide) rest),
              hstop multiplicative? (by decide)⟩
          have hinside : nested (depth + 1) (u ++ (gap ++ ')' :: rest)) =
              .ok (e, gap ++ ')' :: rest) :=
            (hsum hu _ hfollows).sum_ok (hstop additive? (by decide))
          simpa [Token.text] using primary_parentheses hblanks hgap hinside

theorem Derives.recognizes {depth : Nat} {level : Level} {tokens : List Token} {e : Expression}
    (h : Derives depth level tokens e) {body : Text} (hspells : Spells tokens body) (rest : Text)
    (hrest : Follows level rest) : Recognizes depth level (body ++ rest) rest e := by
  induction h generalizing body rest with
  | @number _ literal hfinite =>
      cases hspells with
      | cons hblanks hform hnil =>
          cases hnil
          rw [List.append_nil]
          exact primary_number hblanks hform hfinite hrest
  | parentheses h ih => exact primary_enclosed hspells rest fun hu => ih hu
  | unsigned h ih => exact factor_of_primary (ih hspells rest hrest)
  | @negated depth tokens e h ih =>
      cases hspells with
      | @cons _ _ blanks u hblanks hform hu =>
          have hprimary : primary (nested depth) (u ++ rest) = .ok (e, rest) := ih hu rest hrest
          show factor (nested depth) _ = _
          simpa [Token.text, Operator.symbol] using factor_negated hblanks hprimary
  | @loneFactor depth tokens e h ih =>
      have hfactor : factor (nested depth) (body ++ rest) = .ok (e, rest) := ih hspells rest hrest
      exact ⟨rest.length, Nat.le_refl _, by simp only [product, operation, hfactor]⟩
  | @multiplicative depth op tokens operand left right hop hleft hright ihleft ihright =>
      obtain ⟨u, blanks, v, rfl, hblanks, hu, hv⟩ := hspells.exists_operator
      have hfollows : Follows .product (blanks ++ op.symbol :: (v ++ rest)) :=
        .append hblanks.allWhiteSpace (numberEnds_symbol op _)
      -- the chain has come up to the operator with the left side; it needs one more round
      obtain ⟨rounds, hrounds, hchain⟩ := ihleft hu _ hfollows
      have hfactor : factor (nested depth) (v ++ rest) = .ok (right, rest) := ihright hv rest hrest
      have hlevel := multiplicative?_eq_some_iff.2 ⟨hop, rfl⟩
      obtain ⟨more, hmore, hnext⟩ :=
        chain_more hblanks hlevel hrounds (by simp) hfactor
      refine ⟨more, hmore, ?_⟩
      rw [← hnext, ← hchain]
      simp
  | @loneProduct depth tokens e h ih =>
      have hproduct : product (nested depth) (body ++ rest) = .ok (e, rest) :=
        (ih hspells rest hrest.1).product_ok hrest.2
      exact ⟨rest.length, Nat.le_refl _, by simp only [sum, operation, hproduct]⟩
  | @additive depth op tokens operand left right hop hleft hright ihleft ihright =>
      obtain ⟨u, blanks, v, rfl, hblanks, hu, hv⟩ := hspells.exists_operator
      have hstop : multiplicative? op.symbol = none := by
        rcases hop with rfl | rfl <;> decide
      have hfollows : Follows .sum (blanks ++ op.symbol :: (v ++ rest)) :=
        ⟨.append hblanks.allWhiteSpace (numberEnds_symbol op _),
          nextOperator?_eq_none hblanks (isBlank_symbol op) hstop _⟩
      obtain ⟨rounds, hrounds, hchain⟩ := ihleft hu _ hfollows
      have hproduct : product (nested depth) (v ++ rest) = .ok (right, rest) :=
        (ihright hv rest hrest.1).product_ok hrest.2
      have hlevel := additive?_eq_some_iff.2 ⟨hop, rfl⟩
      obtain ⟨more, hmore, hnext⟩ :=
        chain_more hblanks hlevel hrounds (by simp) hproduct
      refine ⟨more, hmore, ?_⟩
      rw [← hnext, ← hchain]
      simp

end Stepwise.Grammar
