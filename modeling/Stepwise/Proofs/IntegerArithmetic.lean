import Mathlib.Tactic.Ring
import Stepwise.Proofs.Grammar.Integers
import Stepwise.Proofs.Nearest
import Stepwise.Proofs.Replay

set_option autoImplicit false

/-! # Exact arithmetic on whole numbers

Whole numbers of at most `2 ^ 53` are binary64 numbers, so a sum, a difference or a product of whole
numbers is exact as long as it stays within this bound (`isInteger_apply`). If every sub-expression
of a text of whole numbers stays within it, the evaluation of the text returns the exact value, and
every reduction on the way is exact (`evaluate_of_isWritten`).
-/

namespace Stepwise

/-! ## Whole numbers -/

namespace Binary64

/-- The number is exactly the whole number; a zero may have either sign. -/
def IsInteger (x : Binary64) (n : Int) : Prop :=
  ∃ negative m, x = .finite negative m ∧ signedUnits negative m = n * unitsPerOne

/-- The whole number of a sign and a size. -/
def withSign (negative : Bool) (k : Nat) : Int := if negative then -(k : Int) else k

theorem withSign_mul (negative : Bool) (k l : Nat) :
    withSign negative (k * l) = withSign negative k * l := by
  cases negative <;> simp [withSign]

theorem withSign_not (negative : Bool) (k : Nat) :
    withSign (!negative) k = -withSign negative k := by
  cases negative <;> simp [withSign]

theorem withSign_bne (a b : Bool) (k l : Nat) :
    withSign (a != b) (k * l) = withSign a k * withSign b l := by
  cases a <;> cases b <;> simp [withSign]

theorem natAbs_withSign (negative : Bool) (k : Nat) : (withSign negative k).natAbs = k := by
  cases negative <;> simp [withSign]

theorem withSign_natAbs (n : Int) : withSign (n < 0) n.natAbs = n := by
  rcases lt_or_ge n 0 with hneg | hnonneg
  · rw [withSign, if_pos (decide_eq_true hneg)]
    omega
  · rw [withSign, if_neg (by simpa using hnonneg)]
    omega

/-- A whole number with its sign and its size. -/
theorem IsInteger.exists_size {x : Binary64} {n : Int} (h : x.IsInteger n) :
    ∃ negative m k, x = .finite negative m ∧ m.units = k * unitsPerOne ∧
      n = withSign negative k := by
  obtain ⟨negative, m, rfl, hunits⟩ := h
  have hsize : m.units = n.natAbs * unitsPerOne := by
    have habs := congrArg Int.natAbs hunits
    rwa [show signedUnits negative m = withSign negative m.units from rfl, natAbs_withSign,
      Int.natAbs_mul, Int.natAbs_natCast] at habs
  refine ⟨negative, m, n.natAbs, rfl, hsize, ?_⟩
  have hone : (unitsPerOne : Int) ≠ 0 := Int.natCast_ne_zero.2 unitsPerOne_pos.ne'
  refine Int.eq_of_mul_eq_mul_right hone ?_
  rw [← hunits, ← withSign_mul, ← hsize]
  rfl

end Binary64

open Binary64 Grammar

theorem hasShortSignificand_of_le {k : Nat} (h : k ≤ 2 ^ 53) :
    HasShortSignificand (k * unitsPerOne) := by
  rcases Nat.lt_or_eq_of_le h with hlt | rfl
  · exact hasShortSignificand_whole hlt
  · exact hasShortSignificand_two_pow_mul 53

/-- A whole number within the bound is not rounded. -/
theorem isInteger_ofRatio (negative : Bool) {k den : Nat} (hk : k ≤ 2 ^ 53) (hden : 0 < den) :
    (ofRatio negative (k * unitsPerOne * den) den).IsInteger (withSign negative k) := by
  have hshort := hasShortSignificand_of_le hk
  have hlimit : k * unitsPerOne < unitsLimit :=
    whole_lt_unitsLimit (hk.trans (Nat.pow_le_pow_right (by decide) (by decide)))
  obtain ⟨m, hm, hunits⟩ := exists_ofRatio_eq negative hden hshort le_rfl hlimit
  refine ⟨negative, m, hm, ?_⟩
  rw [show signedUnits negative m = withSign negative m.units from rfl, hunits,
    roundUnits_of_short hden hshort, withSign_mul]

theorem isInteger_ofNat {n : Nat} (h : n ≤ 2 ^ 53) : (ofNat n).IsInteger n := by
  simpa [ofNat, withSign] using isInteger_ofRatio false h Nat.one_pos

/-! ## Operations -/

section

variable {x y : Binary64} {a b : Int}

theorem isInteger_neg (hx : x.IsInteger a) : x.neg.IsInteger (-a) := by
  obtain ⟨negative, m, rfl, hunits⟩ := hx
  refine ⟨!negative, m, rfl, ?_⟩
  rw [Int.neg_mul, ← hunits]
  exact withSign_not negative m.units

variable (hx : x.IsInteger a) (hy : y.IsInteger b)
include hx hy

theorem isInteger_add (h : (a + b).natAbs ≤ 2 ^ 53) : (add x y).IsInteger (a + b) := by
  obtain ⟨s, m, rfl, hm⟩ := hx
  obtain ⟨t, l, rfl, hl⟩ := hy
  have hsum : signedUnits s m + signedUnits t l = (a + b) * unitsPerOne := by
    rw [hm, hl, Int.add_mul]
  have hone : (0 : Int) < unitsPerOne := Int.natCast_pos.2 unitsPerOne_pos
  rw [add, hsum]
  by_cases hzero : a + b = 0
  · rw [hzero, Int.zero_mul, if_pos rfl]
    simpa [zero, withSign] using isInteger_ofRatio (s && t) (Nat.zero_le _) Nat.one_pos
  · have hsign : decide ((a + b) * unitsPerOne < 0) = decide (a + b < 0) := by
      rw [decide_eq_decide]
      simpa using mul_lt_mul_iff_of_pos_right (b := a + b) (c := 0) hone
    have hexact := isInteger_ofRatio (a + b < 0) h Nat.one_pos
    rw [withSign_natAbs, Nat.mul_one] at hexact
    rw [if_neg (Int.mul_ne_zero hzero hone.ne'), hsign, Int.natAbs_mul, Int.natAbs_natCast]
    exact hexact

theorem isInteger_sub (h : (a - b).natAbs ≤ 2 ^ 53) : (sub x y).IsInteger (a - b) := by
  rw [Int.sub_eq_add_neg] at h ⊢
  exact isInteger_add hx (isInteger_neg hy) h

theorem isInteger_mul (h : (a * b).natAbs ≤ 2 ^ 53) : (mul x y).IsInteger (a * b) := by
  obtain ⟨s, m, k, rfl, hm, rfl⟩ := hx.exists_size
  obtain ⟨t, l, j, rfl, hl, rfl⟩ := hy.exists_size
  rw [← withSign_bne] at h ⊢
  rw [natAbs_withSign] at h
  have hproduct : m.units * l.units = k * j * unitsPerOne * unitsPerOne := by
    rw [hm, hl]
    ring
  rw [mul, hproduct]
  exact isInteger_ofRatio (s != t) h unitsPerOne_pos

/-- An operation on whole numbers is exact if its exact value is within the bound. -/
theorem isInteger_apply (op : IntegerOperator) (h : (op.apply a b).natAbs ≤ 2 ^ 53) :
    (op.operator.apply x y).IsInteger (op.apply a b) := by
  cases op with
  | add => exact isInteger_add hx hy h
  | sub => exact isInteger_sub hx hy h
  | mul => exact isInteger_mul hx hy h

end

/-! ## Evaluations -/

/-- The reduction has exactly the operands and the value of the operation on whole numbers. -/
structure Reduction.IsExact (step : Reduction) (exact : IntegerReduction) : Prop where
  op : step.op = exact.op.operator
  left : step.left.IsInteger exact.left
  right : step.right.IsInteger exact.right
  value : step.value.IsInteger exact.value

/-- The evaluation has the exact value, and its reductions are the exact ones. -/
structure Evaluation.IsExact (evaluation : Evaluation) (exact : IntegerExpression) : Prop where
  value : evaluation.value.IsInteger exact.value
  reductions : List.Forall₂ Reduction.IsExact evaluation.reductions exact.reductions

theorem exists_reduce_eq {x y : Binary64} {a b : Int} (hx : x.IsInteger a) (hy : y.IsInteger b)
    {op : IntegerOperator} (h : (op.apply a b).natAbs ≤ 2 ^ 53) :
    ∃ step, reduce x op.operator y = .ok step ∧ step.IsExact ⟨a, op, b⟩ := by
  have hvalue := isInteger_apply hx hy op h
  have hfinite : (op.operator.apply x y).isFinite = true := by
    obtain ⟨negative, m, heq, -⟩ := hvalue
    rw [heq]
    rfl
  exact ⟨_, reduce_eq_ok_iff.2 ⟨fun hdivision => op.operator_ne_div hdivision.1, hfinite, rfl⟩,
    rfl, hx, hy, hvalue⟩

/-- Every sub-expression has a value within the bound. -/
def IntegerExpression.Within (bound : Nat) (e : IntegerExpression) : Prop :=
  ∀ sub ∈ e.subexpressions, sub.value.natAbs ≤ bound

namespace IntegerExpression

variable {bound : Nat} {op : IntegerOperator} {e left right : IntegerExpression}

theorem Within.self (h : e.Within bound) : e.value.natAbs ≤ bound := by
  refine h e ?_
  cases e <;> simp [subexpressions]

theorem Within.of_negation (h : (negation e).Within bound) : e.Within bound :=
  fun sub hsub => h sub (List.mem_append_left _ hsub)

theorem Within.of_binary (h : (binary op left right).Within bound) :
    left.Within bound ∧ right.Within bound :=
  ⟨fun sub hsub => h sub (List.mem_append_left _ (List.mem_append_left _ hsub)),
    fun sub hsub => h sub (List.mem_append_left _ (List.mem_append_right _ hsub))⟩

theorem Within.literalsFinite (h : e.Within (2 ^ 53)) :
    e.toExpression.LiteralsFinite := by
  induction e with
  | number value =>
      have hvalue : value ≤ 2 ^ 53 := h.self
      obtain ⟨negative, m, heq, -⟩ := isInteger_ofNat hvalue
      show (ofNat value).isFinite = true
      rw [heq]
      rfl
  | negation operand ih => exact ih h.of_negation
  | binary op left right ihleft ihright =>
      obtain ⟨hleft, hright⟩ := h.of_binary
      exact ⟨ihleft hleft, ihright hright⟩

/-- Within the bound, evaluation is exact. -/
theorem Within.evaluate (h : e.Within (2 ^ 53)) :
    ∃ evaluation, e.toExpression.evaluate = .ok evaluation ∧ evaluation.IsExact e := by
  induction e with
  | number value =>
      have hvalue : value ≤ 2 ^ 53 := h.self
      exact ⟨_, rfl, isInteger_ofNat hvalue, .nil⟩
  | negation operand ih =>
      obtain ⟨inner, hinner, hexact⟩ := ih h.of_negation
      refine ⟨⟨inner.value.neg, inner.reductions⟩, ?_, isInteger_neg hexact.value, hexact.reductions⟩
      rw [toExpression, Expression.evaluate, hinner]
      rfl
  | binary op left right ihleft ihright =>
      obtain ⟨hleft, hright⟩ := h.of_binary
      obtain ⟨l, hl, hlexact⟩ := ihleft hleft
      obtain ⟨r, hr, hrexact⟩ := ihright hright
      obtain ⟨step, hstep, hexact⟩ := exists_reduce_eq hlexact.value hrexact.value h.self
      refine ⟨⟨step.value, l.reductions ++ r.reductions ++ [step]⟩, ?_, hexact.value, ?_⟩
      · rw [toExpression, evaluate_binary_of_ok hl hr, hstep]
        rfl
      · exact List.rel_append (List.rel_append hlexact.reductions hrexact.reductions)
          (.cons hexact .nil)

end IntegerExpression

/-! ## Texts -/

/-- A text of whole numbers, sums, differences and products that is read as an expression has an
exact meaning. If no sub-expression leaves the range of exact whole numbers, the text is evaluated to
its exact value, and so is every operation on the way. -/
theorem evaluate_of_isWritten {t : Text} {tree : Expression} (hparse : parseExpression t = .ok tree)
    (hpoint : '.' ∉ t) (hdivision : '/' ∉ t) :
    (∃ e : IntegerExpression, e.IsWritten t) ∧
    ∀ e : IntegerExpression, e.IsWritten t →
      (∀ sub ∈ e.subexpressions, sub.value.natAbs ≤ 2 ^ 53) →
        ∃ evaluation, tree.evaluate = .ok evaluation ∧ evaluation.value.IsInteger e.value ∧
          List.Forall₂ Reduction.IsExact evaluation.reductions e.reductions := by
  refine ⟨exists_isWritten hparse hpoint hdivision, fun e hwritten hbound => ?_⟩
  have hwithin : e.Within (2 ^ 53) := hbound
  obtain ⟨evaluation, hevaluate, hexact⟩ := hwithin.evaluate
  rw [eq_toExpression_of_isWritten hparse hwritten hwithin.literalsFinite]
  exact ⟨evaluation, hevaluate, hexact.value, hexact.reductions⟩

/-- `(9007199254740991 + 1) * -1`, which comes to the lower end of the range. -/
def lowerEnd : IntegerExpression :=
  .binary .mul (.binary .add (.number 9007199254740991) (.number 1)) (.negation (.number 1))

/-- The tokens of `(9007199254740991+1)*-1`. -/
def lowerEndTokens : List Token :=
  [.opening, .number ⟨false, "9007199254740991".toList, none⟩, .operator .add,
    .number ⟨false, ['1'], none⟩, .closing, .operator .mul, .operator .sub,
    .number ⟨false, ['1'], none⟩]

theorem spells_lowerEndTokens : Spells lowerEndTokens "(9007199254740991+1)*-1".toList := by
  have hlarge : IsNumber ⟨false, "9007199254740991".toList, none⟩ :=
    .whole (by simp) (List.all_eq_true.1 (by decide +kernel))
  have hone : IsNumber ⟨false, ['1'], none⟩ := .whole (by simp) (allDigits_toDigits 1)
  have hform : ∀ token ∈ lowerEndTokens, token.WellFormed := by
    simp only [lowerEndTokens, List.forall_mem_cons, List.not_mem_nil, Token.WellFormed]
    exact ⟨trivial, hlarge, trivial, hone, trivial, trivial, trivial, hone, by simp⟩
  exact spells_flatMap_text hform

theorem denotes_lowerEnd : Denotes .sum lowerEndTokens lowerEnd := by
  have hsum : Denotes .sum
      ([.number ⟨false, "9007199254740991".toList, none⟩] ++
        .operator .add :: [.number ⟨false, ['1'], none⟩])
      (.binary .add (.number 9007199254740991) (.number 1)) :=
    .additive (.inl rfl) (.loneProduct (.loneFactor (.unsigned .number)))
      (.loneFactor (.unsigned .number))
  exact .loneProduct (.multiplicative (.loneFactor (.unsigned (.parentheses hsum)))
    (.negated .number))

/-- The product is the lower end of the range, and a parenthesis and a sign stand before it. -/
theorem evaluate_of_isWritten_lowerEnd :
    ∃ tree, parseExpression "(9007199254740991+1)*-1".toList = .ok tree ∧
      '.' ∉ "(9007199254740991+1)*-1".toList ∧ '/' ∉ "(9007199254740991+1)*-1".toList ∧
      lowerEnd.IsWritten "(9007199254740991+1)*-1".toList ∧
      (∀ sub ∈ lowerEnd.subexpressions, sub.value.natAbs ≤ 2 ^ 53) ∧
      ∃ evaluation, tree.evaluate = .ok evaluation ∧
        evaluation.value.IsInteger (-9007199254740992) ∧
        List.Forall₂ Reduction.IsExact evaluation.reductions
          [⟨9007199254740991, .add, 1⟩, ⟨9007199254740992, .mul, -1⟩] := by
  have hwithin : lowerEnd.Within (2 ^ 53) := by
    unfold IntegerExpression.Within
    decide
  have hwritten : lowerEnd.IsWritten "(9007199254740991+1)*-1".toList :=
    ⟨lowerEndTokens, _, [], rfl, spells_lowerEndTokens, List.forall_mem_nil _, denotes_lowerEnd⟩
  have hparse : parseExpression "(9007199254740991+1)*-1".toList = .ok lowerEnd.toExpression :=
    parseExpression_complete spells_lowerEndTokens (List.forall_mem_nil _)
      (denotes_lowerEnd.derives hwithin.literalsFinite (by decide))
  have hpoint : '.' ∉ "(9007199254740991+1)*-1".toList := by decide
  have hdivision : '/' ∉ "(9007199254740991+1)*-1".toList := by decide
  exact ⟨_, hparse, hpoint, hdivision, hwritten, hwithin,
    (evaluate_of_isWritten hparse hpoint hdivision).2 lowerEnd hwritten hwithin⟩

end Stepwise
