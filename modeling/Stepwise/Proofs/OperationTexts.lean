import Stepwise.Proofs.Grammar.Prefixes
import Stepwise.Proofs.Literals
import Stepwise.Query.Operation

set_option autoImplicit false

/-! # The texts that are operations

A single operation is two decimals with an operator between them, and blanks in any of the four
gaps (`OperationText`). A minus sign is both an operator and a sign, and a literal is read as far as
it goes, yet nothing is ever read too far: a literal ends in front of every operator and every
blank. So a text is read exactly if it has this shape (`splitOperation_eq_ok_iff`), and it has the
shape in one way only (`OperationText.unique`).
-/

namespace Stepwise

/-! ## The shape -/

/-- The two literals with the operator between them. Blanks may stand in all four gaps. -/
inductive OperationText (left : Literal) (op : Operator) (right : Literal) : Text → Prop
  | intro {before gap gap' after : Text} (hbefore : AllBlank before) (hleft : left.IsDecimal)
      (hgap : AllBlank gap) (hgap' : AllBlank gap') (hright : right.IsDecimal)
      (hafter : AllBlank after) :
      OperationText left op right
        (before ++ (left.text ++ (gap ++ op.symbol :: (gap' ++ (right.text ++ after)))))

theorem expectOperator_sound {t rest : Text} {op : Operator}
    (h : expectOperator t = .ok (op, rest)) : t = op.symbol :: rest := by
  unfold expectOperator at h
  split at h
  · split at h
    · next hop => cases h; rw [Operator.symbol_of_ofSymbol? hop]
    · cases h
  · cases h

theorem expectOperator_symbol (op : Operator) (t : Text) :
    expectOperator (op.symbol :: t) = .ok (op, t) := by
  rw [expectOperator, Operator.ofSymbol?_symbol]

theorem expectOperator_skipBlanks_eq_ok_iff {t rest : Text} {op : Operator} :
    expectOperator (Text.skipBlanks t) = .ok (op, rest) ↔
      ∃ gap, AllBlank gap ∧ t = gap ++ op.symbol :: rest := by
  have hahead := Text.noBlankAhead_cons (Grammar.isBlank_symbol op) rest
  rw [← Text.skipBlanks_eq_iff hahead]
  constructor
  · exact expectOperator_sound
  · intro h
    rw [h, expectOperator_symbol]

theorem isDigit_symbol (op : Operator) : op.symbol.isDigit = false := by
  cases op <;> decide

/-- An operator is neither a digit nor a point, so every literal ends in front of it. -/
theorem Literal.endsBefore_symbol (l : Literal) (op : Operator) (t : Text) :
    l.EndsBefore (op.symbol :: t) := by
  apply l.endsBefore_cons (isDigit_symbol op)
  cases op <;> decide

/-- A text splits into two literals and an operator exactly if it has the shape. -/
theorem splitOperation_eq_ok_iff {t : Text} {left right : Literal} {op : Operator} :
    splitOperation t = .ok (left, op, right) ↔ OperationText left op right t := by
  constructor
  · intro h
    unfold splitOperation at h
    obtain ⟨⟨left', t₁⟩, hleft, h⟩ := exists_ok_of_bind_eq_ok h
    obtain ⟨⟨op', t₂⟩, hop, h⟩ := exists_ok_of_bind_eq_ok h
    obtain ⟨⟨right', after⟩, hright, h⟩ := exists_ok_of_bind_eq_ok h
    obtain ⟨⟨⟩, hend, h⟩ := exists_ok_of_bind_eq_ok h
    cases h
    obtain ⟨before, hbefore, hdecimal, -, rfl⟩ := scanSigned_skipBlanks_eq_ok_iff.1 hleft
    obtain ⟨gap, hgap, rfl⟩ := expectOperator_skipBlanks_eq_ok_iff.1 hop
    obtain ⟨gap', hgap', hdecimal', -, rfl⟩ := scanSigned_skipBlanks_eq_ok_iff.1 hright
    have hafter : AllBlank after := (Text.skipBlanks_eq_nil_iff after).1 (expectEnd_sound hend)
    exact .intro hbefore hdecimal hgap hgap' hdecimal' hafter
  · rintro @⟨before, gap, gap', after, hbefore, hleft, hgap, hgap', hright, hafter⟩
    -- a literal ends where the gap behind it starts, or the operator, or the text ends
    have hends : left.EndsBefore (gap ++ op.symbol :: (gap' ++ (right.text ++ after))) :=
      (left.endsBefore_symbol op _).gap hgap
    have hends' : right.EndsBefore after := by
      simpa using right.endsBefore_nil.gap hafter
    unfold splitOperation
    rw [scanSigned_skipBlanks_eq_ok_iff.2 ⟨before, hbefore, hleft, hends, rfl⟩]
    show (expectOperator _ >>= _) = _
    rw [expectOperator_skipBlanks_eq_ok_iff.2 ⟨gap, hgap, rfl⟩]
    show (scanSigned _ >>= _) = _
    rw [scanSigned_skipBlanks_eq_ok_iff.2 ⟨gap', hgap', hright, hends', rfl⟩]
    show (expectEnd _ >>= _) = _
    rw [(Text.skipBlanks_eq_nil_iff after).2 hafter]
    rfl

/-- A text has the shape in one way only. -/
theorem OperationText.unique {t : Text} {left left' right right' : Literal} {op op' : Operator}
    (h : OperationText left op right t) (h' : OperationText left' op' right' t) :
    left = left' ∧ op = op' ∧ right = right' := by
  have hsplit := splitOperation_eq_ok_iff.2 h
  rw [splitOperation_eq_ok_iff.2 h'] at hsplit
  cases hsplit
  exact ⟨rfl, rfl, rfl⟩

/-! ## The values -/

theorem operandValue_eq_ok_iff {l : Literal} {x : Binary64} :
    operandValue l = .ok x ↔ l.toBinary64 = x ∧ x.isFinite = true := by
  unfold operandValue
  split
  · next hfinite =>
      constructor
      · intro h
        cases h
        exact ⟨rfl, hfinite⟩
      · rintro ⟨rfl, -⟩
        rfl
  · next hinfinite =>
      constructor
      · intro h
        cases h
      · rintro ⟨rfl, hfinite⟩
        exact absurd hfinite hinfinite

theorem operandValue_of_infinite {l : Literal} (h : l.toBinary64.isFinite = false) :
    operandValue l = .error (.outOfRange l) := by
  simp [operandValue, h]

/-- The first literal from the left that is too large for binary64. -/
inductive IsFirstOutOfRange (left right : Literal) : Literal → Prop
  | left (h : left.toBinary64.isFinite = false) : IsFirstOutOfRange left right left
  | right (hleft : left.toBinary64.isFinite = true) (h : right.toBinary64.isFinite = false) :
      IsFirstOutOfRange left right right

theorem exists_isFirstOutOfRange_or (left right : Literal) :
    (∃ literal, IsFirstOutOfRange left right literal) ∨
      (left.toBinary64.isFinite = true ∧ right.toBinary64.isFinite = true) := by
  by_cases hleft : left.toBinary64.isFinite = true
  · by_cases hright : right.toBinary64.isFinite = true
    · exact .inr ⟨hleft, hright⟩
    · exact .inl ⟨right, .right hleft (eq_false_of_ne_true hright)⟩
  · exact .inl ⟨left, .left (eq_false_of_ne_true hleft)⟩

/-! ## Reading a text -/

theorem OperationText.parseOperation_eq {t : Text} {left right : Literal} {op : Operator}
    (h : OperationText left op right t) :
    parseOperation t = (do
      let x ← operandValue left
      let y ← operandValue right
      return ⟨x, op, y⟩) := by
  rw [parseOperation, splitOperation_eq_ok_iff.2 h]

/-- The operation that is read has the two values, and both are finite. -/
theorem parseOperation_eq_ok_iff {t : Text} {o : BinaryOperation} :
    parseOperation t = .ok o ↔ ∃ left right, OperationText left o.op right t ∧
      left.toBinary64 = o.left ∧ right.toBinary64 = o.right ∧
      o.left.isFinite = true ∧ o.right.isFinite = true := by
  constructor
  · intro h
    have hread := h
    unfold parseOperation at hread
    split at hread
    · cases hread
    · next left op right hsplit =>
        obtain ⟨x, hx, hread⟩ := exists_ok_of_bind_eq_ok hread
        obtain ⟨y, hy, hread⟩ := exists_ok_of_bind_eq_ok hread
        cases hread
        obtain ⟨hleft, hxfinite⟩ := operandValue_eq_ok_iff.1 hx
        obtain ⟨hright, hyfinite⟩ := operandValue_eq_ok_iff.1 hy
        exact ⟨left, right, splitOperation_eq_ok_iff.1 hsplit, hleft, hright, hxfinite, hyfinite⟩
  · rintro ⟨left, right, hshape, hleft, hright, hxfinite, hyfinite⟩
    rw [hshape.parseOperation_eq, operandValue_eq_ok_iff.2 ⟨hleft, hxfinite⟩,
      operandValue_eq_ok_iff.2 ⟨hright, hyfinite⟩]
    rfl

theorem IsFirstOutOfRange.parseOperation_eq {t : Text} {left right literal : Literal}
    {op : Operator} (h : IsFirstOutOfRange left right literal)
    (hshape : OperationText left op right t) :
    parseOperation t = .error (.outOfRange literal) := by
  rw [hshape.parseOperation_eq]
  cases h with
  | left hleft =>
      rw [operandValue_of_infinite hleft]
      rfl
  | right hleft hright =>
      rw [operandValue_eq_ok_iff.2 ⟨rfl, hleft⟩, operandValue_of_infinite hright]
      rfl

/-- A text of the shape is refused only for a literal that is out of range, and then for the first
one. -/
theorem OperationText.parseOperation_eq_error_iff {t : Text} {left right : Literal} {op : Operator}
    (h : OperationText left op right t) {cause : OperationError} :
    parseOperation t = .error cause ↔
      ∃ literal, IsFirstOutOfRange left right literal ∧ cause = .outOfRange literal := by
  constructor
  · intro herror
    rcases exists_isFirstOutOfRange_or left right with ⟨literal, hfirst⟩ | ⟨hleft, hright⟩
    · rw [hfirst.parseOperation_eq h] at herror
      cases herror
      exact ⟨literal, hfirst, rfl⟩
    · have hok := (parseOperation_eq_ok_iff (o := ⟨_, op, _⟩)).2
        ⟨left, right, h, rfl, rfl, hleft, hright⟩
      rw [hok] at herror
      cases herror
  · rintro ⟨literal, hfirst, rfl⟩
    exact hfirst.parseOperation_eq h

/-- A text is refused for a mismatch exactly if it has not the shape. -/
theorem exists_mismatch_iff {t : Text} :
    (∃ place, parseOperation t = .error (.mismatch place)) ↔
      ∀ left op right, ¬ OperationText left op right t := by
  constructor
  · rintro ⟨place, hplace⟩ left op right hshape
    obtain ⟨literal, -, hcause⟩ := hshape.parseOperation_eq_error_iff.1 hplace
    cases hcause
  · intro hnone
    unfold parseOperation
    split
    · next place _ => exact ⟨place, rfl⟩
    · next left op right hsplit =>
        exact absurd (splitOperation_eq_ok_iff.1 hsplit) (hnone left op right)

/-! ## Messages -/

/-- The message of a mismatch is not the one of a literal that is out of range. -/
theorem mismatch_message_ne (place : Mismatch) (name : Text) :
    (OperationError.mismatch place).message ≠
      "Parse error: operand out of range: " ++ String.ofList name := by
  intro h
  have hsplit : "Parse error: operand out of range: " ++ String.ofList name =
      "Parse error: " ++ ("operand out of range: " ++ String.ofList name) := by
    rw [← String.append_assoc]
    rfl
  rw [hsplit] at h
  -- behind the words that both start with stands another letter
  have hrest := (String.append_right_inj _).1 h
  have hhead := head?_toList_message place
  rw [hrest, head?_toList_append (c := 'o') (by decide)] at hhead
  cases hhead

/-- A text is read as an operation exactly if it is two literals with an operator between them, with
blanks in the four gaps or none, and the values of both literals are finite; these are then the
operands. No text is so in two ways. If a value is too large, the message names the first such
literal from the left, and every other text is a mismatch. -/
theorem parseOperation_reads (t : Text) :
    (∀ o, parseOperation t = .ok o ↔ ∃ left right, OperationText left o.op right t ∧
      left.toBinary64 = o.left ∧ right.toBinary64 = o.right ∧
      o.left.isFinite = true ∧ o.right.isFinite = true) ∧
    (∀ {left left' right right' op op'}, OperationText left op right t →
      OperationText left' op' right' t → left = left' ∧ op = op' ∧ right = right') ∧
    (∀ name, (∃ cause, parseOperation t = .error cause ∧
        cause.message = "Parse error: operand out of range: " ++ String.ofList name) ↔
      ∃ left op right literal, OperationText left op right t ∧
        IsFirstOutOfRange left right literal ∧ literal.text = name) ∧
    ((∃ place, parseOperation t = .error (.mismatch place)) ↔
      ∀ left op right, ¬ OperationText left op right t) := by
  refine ⟨fun o => parseOperation_eq_ok_iff, OperationText.unique, fun name => ?_,
    exists_mismatch_iff⟩
  constructor
  · rintro ⟨cause, herror, hmessage⟩
    by_cases hshape : ∃ left op right, OperationText left op right t
    · obtain ⟨left, op, right, hshape⟩ := hshape
      obtain ⟨literal, hfirst, rfl⟩ := hshape.parseOperation_eq_error_iff.1 herror
      have hname := (String.append_right_inj _).1 hmessage
      exact ⟨left, op, right, literal, hshape, hfirst, String.ofList_injective hname⟩
    · obtain ⟨place, hplace⟩ := exists_mismatch_iff.2 fun left op right h =>
        hshape ⟨left, op, right, h⟩
      rw [herror] at hplace
      cases hplace
      exact absurd hmessage (mismatch_message_ne place name)
  · rintro ⟨left, op, right, literal, hshape, hfirst, rfl⟩
    exact ⟨.outOfRange literal, hfirst.parseOperation_eq hshape, rfl⟩

/-- The first minus sign is the operator, and the second one a sign. -/
theorem parseOperation_reads_two_signs :
    OperationText ⟨false, ['2'], none⟩ .sub ⟨true, ['3'], none⟩ ['2', '-', '-', '3'] ∧
      parseOperation ['2', '-', '-', '3'] = .ok ⟨.ofNat 2, .sub, (Binary64.ofNat 3).neg⟩ ∧
      ∀ left op right, OperationText left op right ['2', '-', '-', '3'] →
        left = ⟨false, ['2'], none⟩ ∧ op = .sub ∧ right = ⟨true, ['3'], none⟩ := by
  obtain ⟨hread, hunique, -⟩ := parseOperation_reads ['2', '-', '-', '3']
  have hshape : OperationText ⟨false, ['2'], none⟩ .sub ⟨true, ['3'], none⟩
      ['2', '-', '-', '3'] :=
    @OperationText.intro _ _ _ [] [] [] [] allBlank_nil (.whole (by decide) (by decide))
      allBlank_nil allBlank_nil (.whole (by decide) (by decide)) allBlank_nil
  have hvalues : parseOperation ['2', '-', '-', '3'] =
      .ok ⟨.ofNat 2, .sub, (Binary64.ofNat 3).neg⟩ :=
    (hread _).2 ⟨_, _, hshape, by decide +kernel, by decide +kernel, by decide +kernel,
      by decide +kernel⟩
  exact ⟨hshape, hvalues, fun left op right h => hunique h hshape⟩

end Stepwise
