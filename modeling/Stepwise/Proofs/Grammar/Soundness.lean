import Stepwise.Proofs.Grammar.Derivation

set_option autoImplicit false

/-! # What the recognizers accept is derived

A recognizer that succeeds has taken the text of tokens that derive the expression it returns
(`Reads`). Each recognizer is sound if the ones it calls are; the induction on the levels of
parentheses that may still be opened closes the circle (`sum_nested_sound`).
-/

namespace Stepwise.Grammar

/-- What the text has before the rest spells tokens that derive the expression. -/
def Reads (depth : Nat) (level : Level) (t rest : Text) (e : Expression) : Prop :=
  ∃ tokens body, t = body ++ rest ∧ Spells tokens body ∧ Derives depth level tokens e

theorem Reads.mono {depth depth' : Nat} {level level' : Level} {t rest : Text}
    {e e' : Expression} (h : Reads depth level t rest e)
    (hrule : ∀ {tokens}, Derives depth level tokens e → Derives depth' level' tokens e') :
    Reads depth' level' t rest e' := by
  obtain ⟨tokens, body, ht, hspells, hderives⟩ := h
  exact ⟨tokens, body, ht, hspells, hrule hderives⟩

/-! ## Numbers -/

theorem scanNumber?_sound {t rest : Text} {l : Literal} (h : scanNumber? t = some (l, rest)) :
    IsNumber l ∧ t = l.text ++ rest := by
  have hsplit := leadingDigits_append_afterDigits t
  have hdigits := allDigits_leadingDigits t
  unfold scanNumber? at h
  split at h
  · split at h
    · next tail hnodigit =>
        split at h
        · cases h
        · next hne =>
            cases h
            refine ⟨.fractional hne (allDigits_leadingDigits _), ?_⟩
            simp [Literal.text, leadingDigits_append_afterDigits]
    · cases h
  · next hne =>
      split at h
      · next tail hpoint =>
          cases h
          refine ⟨.pointed hne hdigits (allDigits_leadingDigits tail), ?_⟩
          have ht : t = leadingDigits t ++ '.' :: tail := by rw [← hpoint, hsplit]
          simpa [Literal.text, leadingDigits_append_afterDigits] using ht
      · cases h
        exact ⟨.whole hne hdigits, by simpa [Literal.text] using hsplit.symm⟩

/-! ## Recognizers -/

/-- What stands between parentheses is read as a sum with one level less to open. -/
def SoundInside (depth : Nat) (inner : Recognizer) : Prop :=
  ∀ {t rest e}, inner t = .ok (e, rest) →
    ∃ levels, depth = levels + 1 ∧ Reads levels .sum t rest e

section

variable {depth : Nat} {inner : Recognizer}

theorem primary_sound (hinner : SoundInside depth inner) {t rest : Text} {e : Expression}
    (h : primary inner t = .ok (e, rest)) : Reads depth .primary t rest e := by
  obtain ⟨blanks, hblanks, ht⟩ := Text.exists_blanks t
  simp only [primary] at h
  split at h
  · next literal tail hscan =>
      obtain ⟨hnumber, htext⟩ := scanNumber?_sound hscan
      split at h
      · next hfinite =>
          cases h
          refine ⟨[.number literal], blanks ++ literal.text, ?_, .singleton hblanks hnumber,
            .number hfinite⟩
          rw [List.append_assoc, ← htext]
          exact ht
      · cases h
  · split at h
    · next tail hopening =>
        split at h
        · cases h
        · next e' between hbetween =>
            obtain ⟨levels, rfl, tokens, body, htail, hspells, hderives⟩ := hinner hbetween
            obtain ⟨gap, hgap, hclosing⟩ := Text.exists_blanks between
            split at h
            · next tail' hexpect =>
                have hskip := expectChar_sound hexpect
                cases h
                refine ⟨.opening :: (tokens ++ [.closing]),
                  blanks ++ ['('] ++ (body ++ (gap ++ [')'])), ?_, ?_, .parentheses hderives⟩
                · rw [ht, hopening, htail, hclosing, hskip]
                  simp
                · exact .cons hblanks trivial (hspells.append (.singleton hgap trivial))
            · cases h
    · cases h

theorem factor_sound (hinner : SoundInside depth inner) {t rest : Text} {e : Expression}
    (h : factor inner t = .ok (e, rest)) : Reads depth .factor t rest e := by
  obtain ⟨blanks, hblanks, ht⟩ := Text.exists_blanks t
  unfold factor at h
  split at h
  · next tail hminus =>
      split at h
      · next e' tail' hprimary =>
          cases h
          obtain ⟨tokens, body, htail, hspells, hderives⟩ := primary_sound hinner hprimary
          refine ⟨.operator .sub :: tokens, blanks ++ ['-'] ++ body, ?_,
            .cons hblanks trivial hspells, .negated hderives⟩
          rw [ht, hminus, htail]
          simp
      · cases h
  · exact (primary_sound hinner h).mono .unsigned

end

/-! ## Chains -/

theorem nextOperator?_sound {level : Char → Option Operator} {t rest : Text} {op : Operator}
    (h : nextOperator? level t = some (op, rest)) :
    ∃ blanks c, AllBlank blanks ∧ t = blanks ++ c :: rest ∧ level c = some op := by
  obtain ⟨blanks, hblanks, ht⟩ := Text.exists_blanks t
  unfold nextOperator? at h
  split at h
  · cases h
  · next c tail hskip =>
      obtain ⟨op', hop, heq⟩ := Option.map_eq_some_iff.1 h
      cases heq
      exact ⟨blanks, c, hblanks, hskip ▸ ht, hop⟩

/-- The rules of a chain: an operand alone, and an operator of the level with one more operand
on its right. -/
structure ChainRules (level : Char → Option Operator) (depth : Nat) (outer inner : Level) :
    Prop where
  symbol : ∀ {c op}, level c = some op → op.symbol = c
  single : ∀ {tokens e}, Derives depth inner tokens e → Derives depth outer tokens e
  more : ∀ {c op tokens operand left right}, level c = some op →
    Derives depth outer tokens left → Derives depth inner operand right →
    Derives depth outer (tokens ++ .operator op :: operand) (.binary op left right)

theorem multiplicative?_eq_some_iff {c : Char} {op : Operator} :
    multiplicative? c = some op ↔ (op = .mul ∨ op = .div) ∧ op.symbol = c := by
  constructor
  · intro h
    unfold multiplicative? at h
    split at h
    · next hc => cases h; exact ⟨.inl rfl, hc.symm⟩
    · split at h
      · next hc => cases h; exact ⟨.inr rfl, hc.symm⟩
      · cases h
  · rintro ⟨rfl | rfl, rfl⟩ <;> decide

theorem additive?_eq_some_iff {c : Char} {op : Operator} :
    additive? c = some op ↔ (op = .add ∨ op = .sub) ∧ op.symbol = c := by
  constructor
  · intro h
    unfold additive? at h
    split at h
    · next hc => cases h; exact ⟨.inl rfl, hc.symm⟩
    · split at h
      · next hc => cases h; exact ⟨.inr rfl, hc.symm⟩
      · cases h
  · rintro ⟨rfl | rfl, rfl⟩ <;> decide

theorem productRules (depth : Nat) : ChainRules multiplicative? depth .product .factor where
  symbol h := (multiplicative?_eq_some_iff.1 h).2
  single h := .loneFactor h
  more h := .multiplicative (multiplicative?_eq_some_iff.1 h).1

theorem sumRules (depth : Nat) : ChainRules additive? depth .sum .product where
  symbol h := (additive?_eq_some_iff.1 h).2
  single h := .loneProduct h
  more h := .additive (additive?_eq_some_iff.1 h).1

section

variable {level : Char → Option Operator} {operand : Recognizer} {depth : Nat}
  {outer inner : Level}

/-- A chain goes on from an expression that was read up to the chain's start. -/
theorem chain_sound (rules : ChainRules level depth outer inner)
    (hoperand : ∀ {t rest e}, operand t = .ok (e, rest) → Reads depth inner t rest e)
    {rounds : Nat} {start t rest : Text} {left e : Expression}
    (hleft : Reads depth outer start t left)
    (h : chain level operand rounds left t = .ok (e, rest)) : Reads depth outer start rest e := by
  induction rounds generalizing left t with
  | zero => cases h; exact hleft
  | succ rounds ih =>
      rw [chain] at h
      split at h
      · cases h; exact hleft
      · next op tail hnext =>
          split at h
          · next right tail' hright =>
              -- the next round starts with the operation on the left
              refine ih ?_ h
              obtain ⟨tokens, body, hstart, hspells, hderives⟩ := hleft
              obtain ⟨blanks, c, hblanks, ht, hc⟩ := nextOperator?_sound hnext
              obtain ⟨tokens', body', htail, hspells', hderives'⟩ := hoperand hright
              refine ⟨tokens ++ .operator op :: tokens', body ++ (blanks ++ [c] ++ body'), ?_, ?_,
                rules.more hc hderives hderives'⟩
              · rw [hstart, ht, htail]
                simp
              · rw [← rules.symbol hc]
                exact hspells.append (.cons hblanks trivial hspells')
          · cases h; exact hleft
          · cases h

theorem operation_sound (rules : ChainRules level depth outer inner)
    (hoperand : ∀ {t rest e}, operand t = .ok (e, rest) → Reads depth inner t rest e)
    {t rest : Text} {e : Expression} (h : operation level operand t = .ok (e, rest)) :
    Reads depth outer t rest e := by
  unfold operation at h
  split at h
  · next left tail hleft => exact chain_sound rules hoperand ((hoperand hleft).mono rules.single) h
  · cases h

end

theorem sum_sound {depth : Nat} {inner : Recognizer} (hinner : SoundInside depth inner)
    {t rest : Text} {e : Expression} (h : sum inner t = .ok (e, rest)) :
    Reads depth .sum t rest e := by
  have hproduct : ∀ {t rest e}, product inner t = .ok (e, rest) → Reads depth .product t rest e :=
    operation_sound (productRules depth) (factor_sound hinner)
  exact operation_sound (sumRules depth) hproduct h

/-- A sum in which so many levels of parentheses may be opened. -/
theorem sum_nested_sound (depth : Nat) {t rest : Text} {e : Expression}
    (h : sum (nested depth) t = .ok (e, rest)) : Reads depth .sum t rest e := by
  induction depth generalizing t rest e with
  | zero => exact sum_sound (fun hnested => by cases hnested) h
  | succ depth ih => exact sum_sound (fun hnested => ⟨depth, rfl, ih hnested⟩) h

end Stepwise.Grammar
