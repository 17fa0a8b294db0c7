import Stepwise.Expression.Operator
import Stepwise.Number.Numeral
import Stepwise.Proofs.Nearest

set_option autoImplicit false

/-! # Numbers up to the sign of a zero

Two values are the same number if they are equal, or zeros. In an explanation they cannot be told
apart (`SameNumber.shown`), and the operators do not tell them apart either, as long as the numbers
are finite and nothing is divided by zero (`SameNumber.apply`).
-/

namespace Stepwise

namespace Binary64

/-- The two are equal, or zeros. -/
def SameNumber (x y : Binary64) : Prop := x = y ∨ (x.isZero = true ∧ y.isZero = true)

instance (x y : Binary64) : Decidable (x.SameNumber y) := inferInstanceAs (Decidable (_ ∨ _))

theorem isFinite_of_isZero {x : Binary64} (h : x.isZero = true) : x.isFinite = true := by
  cases x with
  | finite negative m => rfl
  | infinite negative => cases h
  | nan => cases h

theorem isZero_neg (x : Binary64) : x.neg.isZero = x.isZero := by
  cases x <;> rfl

theorem exists_finite {x : Binary64} (h : x.isFinite = true) :
    ∃ negative m, x = .finite negative m := by
  cases x with
  | finite negative m => exact ⟨negative, m, rfl⟩
  | infinite negative => cases h
  | nan => cases h

namespace SameNumber

variable {x y : Binary64}

theorem isZero (h : x.SameNumber y) : x.isZero = y.isZero := by
  rcases h with rfl | ⟨hx, hy⟩
  · rfl
  · rw [hx, hy]

theorem isFinite (h : x.SameNumber y) : x.isFinite = y.isFinite := by
  rcases h with rfl | ⟨hx, hy⟩
  · rfl
  · rw [isFinite_of_isZero hx, isFinite_of_isZero hy]

/-- The same number has the same numeral in an explanation. -/
theorem shown (h : x.SameNumber y) : x.shown = y.shown := by
  rcases h with rfl | ⟨hx, hy⟩
  · rfl
  · rw [Binary64.shown, Binary64.shown, if_pos hx, if_pos hy]

variable {a b : Bool} {m n : Magnitude}

/-- The same number has the same magnitude, and the same sign unless it is zero. -/
theorem units (h : (finite a m).SameNumber (finite b n)) :
    m.units = n.units ∧ (m.units = 0 ∨ a = b) := by
  rcases h with h | ⟨hm, hn⟩
  · cases h
    exact ⟨rfl, .inr rfl⟩
  · have hm : m.units = 0 := of_decide_eq_true hm
    have hn : n.units = 0 := of_decide_eq_true hn
    exact ⟨hm.trans hn.symm, .inl hm⟩

theorem signedUnits (h : (finite a m).SameNumber (finite b n)) :
    signedUnits a m = signedUnits b n := by
  obtain ⟨hunits, hzero | rfl⟩ := h.units
  · rw [Binary64.signedUnits, Binary64.signedUnits, ← hunits, hzero]
    simp
  · rw [Binary64.signedUnits, Binary64.signedUnits, hunits]

theorem neg (h : x.SameNumber y) : x.neg.SameNumber y.neg := by
  rcases h with rfl | ⟨hx, hy⟩
  · exact .inl rfl
  · exact .inr ⟨(isZero_neg x).trans hx, (isZero_neg y).trans hy⟩

end SameNumber

/-! ## Operations -/

theorem roundUnits_zero (den : Nat) : roundUnits 0 den = 0 := by
  simp [roundUnits, roundRatio]

theorem isZero_ofRatio_iff {negative : Bool} {num den : Nat} :
    (ofRatio negative num den).isZero = true ↔ roundUnits num den = 0 := by
  unfold ofRatio
  split
  · exact decide_eq_true_iff
  · next hlarge =>
      refine iff_of_false Bool.false_ne_true ?_
      intro hzero
      rw [hzero] at hlarge
      exact hlarge unitsLimit_pos

/-- The sign of a rounded ratio matters only if there is something to round. -/
theorem sameNumber_ofRatio {a b : Bool} {num den : Nat} (h : num = 0 ∨ a = b) :
    (ofRatio a num den).SameNumber (ofRatio b num den) := by
  rcases h with rfl | rfl
  · have hzero := roundUnits_zero den
    exact .inr ⟨isZero_ofRatio_iff.2 hzero, isZero_ofRatio_iff.2 hzero⟩
  · exact .inl rfl

section

variable {a b c d : Bool} {m n p q : Magnitude}
  (hleft : (finite a m).SameNumber (finite c p)) (hright : (finite b n).SameNumber (finite d q))
include hleft hright

theorem sameNumber_add :
    (add (finite a m) (finite b n)).SameNumber (add (finite c p) (finite d q)) := by
  rw [add, add, hleft.signedUnits, hright.signedUnits]
  split
  · exact sameNumber_ofRatio (.inl rfl)
  · exact .inl rfl

theorem sameNumber_mul :
    (mul (finite a m) (finite b n)).SameNumber (mul (finite c p) (finite d q)) := by
  obtain ⟨hm, hsignLeft⟩ := hleft.units
  obtain ⟨hn, hsignRight⟩ := hright.units
  rw [mul, mul, ← hm, ← hn]
  refine sameNumber_ofRatio ?_
  rcases hsignLeft with hzero | rfl
  · exact .inl (by rw [hzero, Nat.zero_mul])
  · rcases hsignRight with hzero | rfl
    · exact .inl (by rw [hzero, Nat.mul_zero])
    · exact .inr rfl

theorem sameNumber_div (hdivisor : n.units ≠ 0) :
    (div (finite a m) (finite b n)).SameNumber (div (finite c p) (finite d q)) := by
  obtain ⟨hm, hsignLeft⟩ := hleft.units
  obtain ⟨hn, hsignRight⟩ := hright.units
  obtain rfl : b = d := hsignRight.resolve_left hdivisor
  rw [div, div, ← hm, ← hn, if_neg hdivisor, if_neg hdivisor]
  refine sameNumber_ofRatio ?_
  rcases hsignLeft with hzero | rfl
  · exact .inl (by rw [hzero, Nat.zero_mul])
  · exact .inr rfl

end

/-- On the same finite numbers an operation gives the same number, unless it divides by zero. -/
theorem SameNumber.apply {op : Operator} {x y x' y' : Binary64} (hx : x.SameNumber x')
    (hy : y.SameNumber y') (hxfinite : x'.isFinite = true) (hyfinite : y'.isFinite = true)
    (hdivisor : ¬ (op = .div ∧ y'.isZero = true)) :
    (op.apply x y).SameNumber (op.apply x' y') := by
  obtain ⟨a, m, rfl⟩ := exists_finite (hx.isFinite.trans hxfinite)
  obtain ⟨b, n, rfl⟩ := exists_finite (hy.isFinite.trans hyfinite)
  obtain ⟨c, p, rfl⟩ := exists_finite hxfinite
  obtain ⟨d, q, rfl⟩ := exists_finite hyfinite
  cases op with
  | add => exact sameNumber_add hx hy
  | sub => exact sameNumber_add hx hy.neg
  | mul => exact sameNumber_mul hx hy
  | div =>
      refine sameNumber_div hx hy fun hzero => hdivisor ⟨rfl, ?_⟩
      exact decide_eq_true (hy.units.1.symm.trans hzero)

end Binary64

end Stepwise
