import Stepwise.Proofs.Scanning

set_option autoImplicit false

/-! # Literals at the start of a text

A literal is read as far as it goes: up to a place where neither a digit nor a point with a
digit follows (`Literal.EndsBefore`). A text that starts with a literal and goes on in such a
way is read as that literal and the rest (`scanSigned_complete`), so a text has only one
literal at its start.
-/

namespace Stepwise

/-! ## Where a literal ends -/

/-- The text does not go on with the literal: it starts with no digit, and with no point and
digit behind a literal without a fraction. -/
structure Literal.EndsBefore (l : Literal) (rest : Text) : Prop where
  digits : NoDigitAhead rest
  fraction : l.fraction = none → ∀ tail, rest = '.' :: tail → NoDigitAhead tail

theorem Literal.endsBefore_nil (l : Literal) : l.EndsBefore [] := by
  constructor
  · intro c tail h
    cases h
  · intro _ tail h
    cases h

/-- A character that is neither a digit nor a point ends a literal. -/
theorem Literal.endsBefore_cons (l : Literal) {c : Char} (hdigit : c.isDigit = false)
    (hpoint : c ≠ '.') (rest : Text) : l.EndsBefore (c :: rest) := by
  constructor
  · intro d tail h
    cases h
    exact hdigit
  · intro _ tail h
    cases h
    exact absurd rfl hpoint

/-- A gap of blanks ends a literal. -/
theorem Literal.EndsBefore.gap {l : Literal} {gap rest : Text} (hgap : AllBlank gap)
    (h : l.EndsBefore rest) : l.EndsBefore (gap ++ rest) := by
  cases gap with
  | nil => exact h
  | cons c gap =>
      have hc : isBlank c = true := hgap c List.mem_cons_self
      refine l.endsBefore_cons (not_isDigit_of_isWhiteSpace (isWhiteSpace_of_isBlank hc)) ?_ _
      rintro rfl
      cases hc

theorem noDigitAhead_afterDigits (t : Text) : NoDigitAhead (afterDigits t) := by
  intro c rest h
  have hhead := List.head?_dropWhile_not Char.isDigit t
  rw [show t.dropWhile Char.isDigit = afterDigits t from rfl, h] at hhead
  simpa using hhead

theorem noDigitAhead_of_leadingDigits {t : Text} (h : leadingDigits t = []) :
    NoDigitAhead t := by
  intro c rest ht
  cases hc : c.isDigit with
  | false => rfl
  | true =>
      rw [leadingDigits, ht, List.takeWhile_cons_of_pos hc] at h
      cases h

theorem scanUnsigned_endsBefore {negative : Bool} {t rest : Text} {l : Literal}
    (h : scanUnsigned negative t = .ok (l, rest)) : l.EndsBefore rest := by
  have hafter := noDigitAhead_afterDigits t
  rw [scanUnsigned] at h
  split at h
  · cases h
  · split at h
    · next tail hpoint =>
        rw [hpoint] at hafter
        split at h
        · next hnone =>
            cases h
            refine ⟨hafter, fun _ tail' heq => ?_⟩
            cases heq
            exact noDigitAhead_of_leadingDigits hnone
        · cases h
          exact ⟨noDigitAhead_afterDigits tail, fun hnone => by cases hnone⟩
    · next hpoint =>
        cases h
        exact ⟨hafter, fun _ tail heq => absurd heq (hpoint tail)⟩

/-- A literal is read as far as it goes. -/
theorem scanSigned_endsBefore {t rest : Text} {l : Literal} (h : scanSigned t = .ok (l, rest)) :
    l.EndsBefore rest := by
  unfold scanSigned at h
  split at h <;> exact scanUnsigned_endsBefore h

theorem scanUnsigned_complete {l : Literal} {rest : Text} (h : l.IsDecimal)
    (hrest : l.EndsBefore rest) :
    scanUnsigned l.negative (l.unsigned.text ++ rest) = .ok (l, rest) := by
  cases h with
  | @whole negative digits h hd =>
      simp only [Literal.unsigned, Literal.text, Bool.false_eq_true, if_false, List.nil_append,
        List.append_nil]
      unfold scanUnsigned
      rw [leadingDigits_append hd hrest.digits, afterDigits_append hd hrest.digits]
      split
      · exact absurd rfl h
      · split
        · next tail =>
            have hnone : leadingDigits tail = [] := by
              cases tail with
              | nil => rfl
              | cons c tail =>
                  exact leadingDigits_eq_nil (hrest.fraction rfl _ rfl c tail rfl) tail
            rw [hnone]
        · rfl
  | @pointed negative digits fraction h hd hf hfd =>
      have hpoint := noDigitAhead_cons (c := '.') (by decide) (fraction ++ rest)
      simp only [Literal.unsigned, Literal.text, Bool.false_eq_true, if_false, List.nil_append,
        List.append_assoc, List.cons_append]
      unfold scanUnsigned
      rw [leadingDigits_append hd hpoint, afterDigits_append hd hpoint]
      split
      · exact absurd rfl h
      · simp only [leadingDigits_append hfd hrest.digits, afterDigits_append hfd hrest.digits]

theorem scanSigned_of_digit {c : Char} (h : c.isDigit = true) (t : Text) :
    scanSigned (c :: t) = scanUnsigned false (c :: t) := by
  unfold scanSigned
  split
  · next heq =>
      cases heq
      exact absurd h (by decide)
  · rfl

/-! ## The characters of a literal -/

namespace Literal.IsDecimal

variable {l : Literal}

theorem mem_text (h : l.IsDecimal) {c : Char} (hc : c ∈ l.text) :
    c.isDigit = true ∨ c = '-' ∨ c = '.' := by
  rw [Literal.text_eq, List.mem_append] at hc
  rcases hc with hc | hc
  · split at hc
    · exact .inr (.inl (List.mem_singleton.1 hc))
    · cases hc
  · cases h with
    | whole h hd => exact .inl (hd c (by simpa [Literal.text, Literal.unsigned] using hc))
    | pointed h hd hf hfd =>
        simp only [Literal.text, Literal.unsigned, Bool.false_eq_true, if_false, List.nil_append,
          List.mem_append, List.mem_cons] at hc
        rcases hc with hc | rfl | hc
        · exact .inl (hd c hc)
        · exact .inr (.inr rfl)
        · exact .inl (hfd c hc)

/-- A literal without its sign starts with a digit. -/
theorem exists_head (h : l.IsDecimal) : ∃ c tail, l.unsigned.text = c :: tail ∧
    c.isDigit = true := by
  cases h with
  | @whole negative digits h hd =>
      obtain ⟨c, tail, rfl⟩ := List.exists_cons_of_ne_nil h
      exact ⟨c, tail, by simp [Literal.text, Literal.unsigned], hd c List.mem_cons_self⟩
  | @pointed negative digits fraction h hd hf hfd =>
      obtain ⟨c, tail, rfl⟩ := List.exists_cons_of_ne_nil h
      exact ⟨c, tail ++ '.' :: fraction, by simp [Literal.text, Literal.unsigned],
        hd c List.mem_cons_self⟩

/-- A literal ends with a digit. -/
theorem exists_last (h : l.IsDecimal) : ∃ init d, l.text = init ++ [d] ∧ d.isDigit = true := by
  rw [Literal.text_eq]
  cases h with
  | @whole negative digits h hd =>
      obtain ⟨init, d, rfl⟩ := (List.eq_nil_or_concat' digits).resolve_left h
      refine ⟨(if negative then ['-'] else []) ++ init, d, ?_, hd d (by simp)⟩
      simp [Literal.text, Literal.unsigned]
  | @pointed negative digits fraction h hd hf hfd =>
      obtain ⟨init, d, rfl⟩ := (List.eq_nil_or_concat' fraction).resolve_left hf
      refine ⟨(if negative then ['-'] else []) ++ (digits ++ '.' :: init), d, ?_, hfd d (by simp)⟩
      simp [Literal.text, Literal.unsigned]

end Literal.IsDecimal

/-- A text that starts with a literal is read as that literal, if the literal ends there. -/
theorem scanSigned_complete {l : Literal} {rest : Text} (h : l.IsDecimal)
    (hrest : l.EndsBefore rest) : scanSigned (l.text ++ rest) = .ok (l, rest) := by
  have hscan := scanUnsigned_complete h hrest
  rw [Literal.text_eq]
  cases hsign : l.negative with
  | true =>
      rw [hsign] at hscan
      exact hscan
  | false =>
      obtain ⟨c, tail, htext, hc⟩ := h.exists_head
      rw [hsign, htext] at hscan
      simpa [htext, scanSigned_of_digit hc] using hscan

/-- What is read at the start of a text is the literal that stands there. -/
theorem scanSigned_eq_ok_iff {t rest : Text} {l : Literal} :
    scanSigned t = .ok (l, rest) ↔ l.IsDecimal ∧ l.EndsBefore rest ∧ t = l.text ++ rest := by
  constructor
  · intro h
    obtain ⟨hdecimal, ht⟩ := scanSigned_sound h
    exact ⟨hdecimal, scanSigned_endsBefore h, ht⟩
  · rintro ⟨hdecimal, hends, rfl⟩
    exact scanSigned_complete hdecimal hends

theorem Literal.IsDecimal.noBlankAhead {l : Literal} (h : l.IsDecimal) (rest : Text) :
    Text.NoBlankAhead (l.text ++ rest) := by
  obtain ⟨d, tail, htext, hd⟩ := h.exists_head
  rw [Literal.text_eq, htext]
  intro c tail' hsplit
  cases hsign : l.negative with
  | true =>
      rw [hsign] at hsplit
      cases hsplit
      decide
  | false =>
      rw [hsign] at hsplit
      cases hsplit
      exact not_isBlank_of_isDigit hd

theorem scanSigned_skipBlanks_eq_ok_iff {t rest : Text} {l : Literal} :
    scanSigned (Text.skipBlanks t) = .ok (l, rest) ↔
      ∃ gap, AllBlank gap ∧ l.IsDecimal ∧ l.EndsBefore rest ∧ t = gap ++ (l.text ++ rest) := by
  rw [scanSigned_eq_ok_iff]
  constructor
  · rintro ⟨hdecimal, hends, ht⟩
    obtain ⟨gap, hgap, ht⟩ := (Text.skipBlanks_eq_iff (hdecimal.noBlankAhead rest)).1 ht
    exact ⟨gap, hgap, hdecimal, hends, ht⟩
  · rintro ⟨gap, hgap, hdecimal, hends, rfl⟩
    exact ⟨hdecimal, hends, Text.skipBlanks_gap hgap (hdecimal.noBlankAhead rest)⟩

theorem exists_scanUnsigned {c : Char} (h : c.isDigit = true) (negative : Bool) (t : Text) :
    ∃ l rest, scanUnsigned negative (c :: t) = .ok (l, rest) := by
  have hne : leadingDigits (c :: t) ≠ [] := by simp [leadingDigits, h]
  unfold scanUnsigned
  split
  · next hnil => exact absurd hnil hne
  · split
    · split <;> exact ⟨_, _, rfl⟩
    · exact ⟨_, _, rfl⟩

/-- Some literal is read from a text that starts with a literal: this one, or a longer one. -/
theorem exists_scanSigned {l : Literal} (h : l.IsDecimal) (rest : Text) :
    ∃ l' rest', scanSigned (l.text ++ rest) = .ok (l', rest') := by
  obtain ⟨c, tail, htext, hc⟩ := h.exists_head
  rw [Literal.text_eq, htext]
  cases l.negative with
  | true => exact exists_scanUnsigned hc true (tail ++ rest)
  | false =>
      rw [show (if false = true then ['-'] else []) ++ c :: tail ++ rest = c :: (tail ++ rest) from
        rfl, scanSigned_of_digit hc]
      exact exists_scanUnsigned hc false (tail ++ rest)

end Stepwise
