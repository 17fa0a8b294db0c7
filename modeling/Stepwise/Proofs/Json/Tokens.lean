import Stepwise.Json.Numeral
import Stepwise.Json.Reader
import Stepwise.Json.Writer
import Stepwise.Proofs.Numerals

set_option autoImplicit false

/-! # Strings and numerals of JSON, written and read

A text in quotes is read back whatever its characters are (`readString?_quoted`), and a numeral is
read back if it has the form in which JSON writes numerals and no part of it can go on
(`readNumeral?_text`). The numerals of whole numbers and of decimals have this form.
-/

namespace Stepwise

/-! ## Strings -/

theorem hexValue?_digitChar : ∀ d < 16, hexValue? (Nat.digitChar d) = some d := by decide

theorem codeUnit?_hexDigits {unit : Nat} (h : unit < 0x10000) :
    codeUnit? (Nat.digitChar (unit / 0x1000 % 16)) (Nat.digitChar (unit / 0x100 % 16))
      (Nat.digitChar (unit / 0x10 % 16)) (Nat.digitChar (unit % 16)) = some unit := by
  have hmod (n : Nat) : n % 16 < 16 := Nat.mod_lt n (by decide)
  simp only [codeUnit?, hexValue?_digitChar _ (hmod _), Option.pure_def, Option.bind_eq_bind,
    Option.bind_some, Option.some.injEq]
  omega

section

variable (t : Text)

theorem readString?_escape {letter c : Char} (hunit : letter ≠ 'u')
    (h : shortEscape? letter = some c) :
    readString? ('\\' :: letter :: t) =
      (readString? t).map fun read => (.char c :: read.1, read.2) := by
  cases hread : readString? t <;> simp [readString?, hunit, h, hread]

theorem readString?_unit {unit : Nat} (h : unit < 0x10000) :
    readString? ('\\' :: 'u' :: (hexDigits4 unit ++ t)) =
      (readString? t).map fun read => (.ofUnit unit :: read.1, read.2) := by
  have hunit := codeUnit?_hexDigits h
  cases hread : readString? t <;> simp [readString?, hexDigits4, hunit, hread]

theorem readString?_plain {c : Char} (hquote : c ≠ '"') (hescape : c ≠ '\\')
    (hcontrol : ¬ c.toNat < 0x20) :
    readString? (c :: t) = (readString? t).map fun read => (.char c :: read.1, read.2) := by
  cases hread : readString? t <;> simp [readString?, hescape, hcontrol, hread]

/-- A character as it is written is read back, whatever follows. -/
theorem readString?_char (c : Char) :
    readString? ((JsonChar.char c).text ++ t) =
      (readString? t).map fun read => (.char c :: read.1, read.2) := by
  unfold JsonChar.text
  dsimp only
  split
  · next h => subst h; exact readString?_escape t (by decide) rfl
  · next hquote =>
    split
    · next h => subst h; exact readString?_escape t (by decide) rfl
    · next hescape =>
      split
      · next h => subst h; exact readString?_escape t (by decide) rfl
      split
      · next h => subst h; exact readString?_escape t (by decide) rfl
      split
      · next h => subst h; exact readString?_escape t (by decide) rfl
      split
      · next h => subst h; exact readString?_escape t (by decide) rfl
      split
      · next h => subst h; exact readString?_escape t (by decide) rfl
      split
      · next hcontrol =>
          -- no half of a surrogate pair is among the control characters
          have hunit : JsonChar.ofUnit c.toNat = .char c := by
            rw [JsonChar.ofUnit, if_neg (by omega), Char.ofNat_toNat]
          rw [List.cons_append, List.cons_append, readString?_unit t (by omega), hunit]
      · next hcontrol => exact readString?_plain t hquote hescape hcontrol

end

/-- A text in quotes is read back, and what follows the closing quote is left. -/
theorem readString?_quoted (s rest : Text) :
    readString? ((JsonString.ofText s).flatMap JsonChar.text ++ '"' :: rest) =
      some (.ofText s, rest) := by
  induction s with
  | nil => rfl
  | cons c s ih =>
      rw [JsonString.ofText, List.map_cons, List.flatMap_cons, List.append_assoc,
        readString?_char, ← JsonString.ofText, ih]
      rfl

/-! ## Numerals -/

/-- The form in which JSON writes numbers: no zero stands before another digit, and an exponent has
digits. -/
structure JsonNumeral.IsRegular (n : JsonNumeral) : Prop where
  whole : AllDigits n.whole
  leading : n.whole = ['0'] ∨ ∃ c rest, n.whole = c :: rest ∧ c ≠ '0'
  fraction : AllDigits n.fraction
  exponent : ∀ negative digits, n.exponent = some (negative, digits) →
    digits ≠ [] ∧ AllDigits digits

theorem JsonNumeral.IsRegular.exists_head {n : JsonNumeral} (h : n.IsRegular) :
    ∃ c rest, n.whole = c :: rest ∧ c.isDigit = true := by
  have hhead {c : Char} {rest : Text} (hcons : n.whole = c :: rest) :
      ∃ c rest, n.whole = c :: rest ∧ c.isDigit = true :=
    ⟨c, rest, hcons, h.whole c (by rw [hcons]; exact List.mem_cons_self)⟩
  rcases h.leading with hzero | ⟨c, rest, hcons, -⟩
  · exact hhead hzero
  · exact hhead hcons

/-- The text does not go on with a numeral. -/
def NumeralEnds (t : Text) : Prop :=
  ∀ c rest, t = c :: rest → c.isDigit = false ∧ c ≠ '.' ∧ c ≠ 'e' ∧ c ≠ 'E'

theorem numeralEnds_nil : NumeralEnds [] := by
  intro c rest h
  cases h

theorem NumeralEnds.noDigitAhead {t : Text} (h : NumeralEnds t) : NoDigitAhead t :=
  fun c rest ht => (h c rest ht).1

/-- The digits of an exponent, behind its letter and its sign. -/
def exponentText : Option (Bool × Text) → Text
  | none => []
  | some (negative, digits) => 'e' :: (if negative then '-' else '+') :: digits

/-- The point and the digits behind it. -/
def fractionText (digits : Text) : Text := if digits = [] then [] else '.' :: digits

theorem JsonNumeral.text_eq (n : JsonNumeral) :
    n.text = (if n.negative then ['-'] else []) ++
      (n.whole ++ (fractionText n.fraction ++ exponentText n.exponent)) := by
  rw [text, fractionText, List.append_assoc, List.append_assoc]
  cases n.exponent <;> rfl

section

variable {rest : Text} (hrest : NumeralEnds rest)
include hrest

theorem scanExponent?_text {exponent : Option (Bool × Text)}
    (h : ∀ negative digits, exponent = some (negative, digits) → digits ≠ [] ∧ AllDigits digits) :
    scanExponent? (exponentText exponent ++ rest) = some (exponent, rest) := by
  match exponent with
  | none =>
      cases rest with
      | nil => rfl
      | cons c rest =>
          obtain ⟨-, -, he, hE⟩ := hrest c rest rfl
          simp [exponentText, scanExponent?, he, hE]
  | some (negative, digits) =>
      obtain ⟨hne, hdigits⟩ := h negative digits rfl
      have hread : readExponent? negative (digits ++ rest) =
          some (some (negative, digits), rest) := by
        rw [readExponent?, leadingDigits_append hdigits hrest.noDigitAhead,
          afterDigits_append hdigits hrest.noDigitAhead]
        split
        · exact absurd rfl hne
        · rfl
      cases negative with
      | true => exact hread
      | false => exact hread

/-- Neither a digit nor a point stands behind the fraction. -/
theorem exponentText_ahead (exponent : Option (Bool × Text)) {c : Char} {tail : Text}
    (h : exponentText exponent ++ rest = c :: tail) : c.isDigit = false ∧ c ≠ '.' := by
  match exponent with
  | none => exact ⟨(hrest c tail h).1, (hrest c tail h).2.1⟩
  | some (negative, digits) =>
      cases h
      decide

theorem scanFraction?_text {fraction : Text} (hfraction : AllDigits fraction)
    (exponent : Option (Bool × Text)) :
    scanFraction? (fractionText fraction ++ (exponentText exponent ++ rest)) =
      some (fraction, exponentText exponent ++ rest) := by
  have hahead : ∀ c tail, exponentText exponent ++ rest = c :: tail →
      c.isDigit = false ∧ c ≠ '.' := fun _ _ => exponentText_ahead hrest exponent
  generalize exponentText exponent ++ rest = after at hahead ⊢
  have hdigit : NoDigitAhead after := fun c tail h => (hahead c tail h).1
  unfold fractionText
  split
  · next hnil =>
      subst hnil
      rw [List.nil_append, scanFraction?.eq_def]
      split
      · next tail => exact absurd rfl (hahead '.' tail rfl).2
      · rfl
  · next hne =>
      rw [List.cons_append, scanFraction?, leadingDigits_append hfraction hdigit,
        afterDigits_append hfraction hdigit]
      split
      · exact absurd rfl hne
      · rfl

theorem readUnsigned?_text {n : JsonNumeral} (h : n.IsRegular) :
    readUnsigned? n.negative
        (n.whole ++ (fractionText n.fraction ++ (exponentText n.exponent ++ rest))) =
      some (n, rest) := by
  have hahead : NoDigitAhead (fractionText n.fraction ++ (exponentText n.exponent ++ rest)) := by
    intro c tail hsplit
    unfold fractionText at hsplit
    split at hsplit
    · exact (exponentText_ahead hrest n.exponent hsplit).1
    · cases hsplit
      decide
  unfold readUnsigned?
  rw [leadingDigits_append h.whole hahead, afterDigits_append h.whole hahead,
    scanFraction?_text hrest h.fraction]
  split
  · next hnil => rcases h.leading with hzero | ⟨c, tail, hcons, -⟩ <;> simp_all
  · next hzero => rcases h.leading with hlone | ⟨c, tail, hcons, hc⟩ <;> simp_all
  · simp only [Option.bind_eq_bind, Option.bind_some, scanExponent?_text hrest h.exponent]
    rfl

/-- A numeral as it is written is read back if the text does not go on with it. -/
theorem readNumeral?_text {n : JsonNumeral} (h : n.IsRegular) :
    readNumeral? (n.text ++ rest) = some (n, rest) := by
  have hread := readUnsigned?_text hrest h
  rw [JsonNumeral.text_eq, List.append_assoc, List.append_assoc, List.append_assoc]
  cases hsign : n.negative with
  | true =>
      rw [hsign] at hread
      exact hread
  | false =>
      rw [hsign] at hread
      rw [if_neg Bool.false_ne_true, List.nil_append, readNumeral?.eq_def]
      split
      · next tail hminus =>
          -- a digit stands at the start, and no sign
          obtain ⟨c, whole, hwhole, hdigit⟩ := h.exists_head
          rw [hwhole] at hminus
          cases hminus
          exact absurd hdigit (by decide)
      · exact hread

end

/-! ## The numerals of numbers -/

/-- No zero stands at the start of the digits of a number, unless the number is zero. -/
theorem exists_head_toDigits {n : Nat} (h : n ≠ 0) :
    ∃ c rest, Nat.toDigits 10 n = c :: rest ∧ c ≠ '0' := by
  induction n using Nat.strongRecOn with
  | ind n ih =>
      rcases Nat.lt_or_ge n 10 with hlt | hge
      · refine ⟨Nat.digitChar n, [], Nat.toDigits_of_lt_base hlt, ?_⟩
        have hdigit : ∀ d < 10, d ≠ 0 → Nat.digitChar d ≠ '0' := by decide
        exact hdigit n hlt h
      · obtain ⟨c, rest, hdigits, hc⟩ := ih (n / 10) (by omega) (by omega)
        exact ⟨c, rest ++ [Nat.digitChar (n % 10)],
          by rw [Nat.toDigits_of_base_le (by decide) hge, hdigits, List.cons_append], hc⟩

namespace JsonNumeral

theorem isRegular_ofNat (n : Nat) : (ofNat n).IsRegular where
  whole := allDigits_toDigits n
  leading := by
    by_cases hzero : n = 0
    · exact .inl (by rw [hzero]; rfl)
    · exact .inr (exists_head_toDigits hzero)
  fraction := fun _ h => absurd h List.not_mem_nil
  exponent := by
    intro negative digits h
    cases h

/-- A whole number within the limit is read back from its numeral. -/
theorem word?_ofNat {n limit : Nat} (h : n ≤ limit) : (ofNat n).word? limit = some n := by
  have hvalue : Nat.ofDigitChars 10 (Nat.toDigits 10 n) 0 = n := Nat.ofDigitChars_ten_toDigits
  simp [word?, ofNat, hvalue, h]

theorem isRegular_ofDecimal (negative : Bool) (d : Decimal) : (ofDecimal negative d).IsRegular := by
  have hdigits := allDigits_toDigits d.digits
  have hzero : AllDigits ['0'] := allDigits_zeros 1
  unfold ofDecimal
  dsimp only
  split
  · exact ⟨hzero, .inl rfl, hzero, by simp⟩
  · next hne =>
      obtain ⟨c, rest, hhead, hc⟩ := exists_head_toDigits hne
      split
      · exact ⟨hdigits.append (allDigits_zeros _),
          .inr ⟨c, _, by rw [hhead, List.cons_append], hc⟩, hzero, by simp⟩
      · split
        · next hpoint =>
            obtain ⟨k, hk⟩ : ∃ k, (((Nat.toDigits 10 d.digits).length : Int) + d.exponent).toNat =
                k + 1 := Nat.exists_eq_add_one.2 (by omega)
            refine ⟨fun e he => hdigits e (List.mem_of_mem_take he), .inr ?_,
              fun e he => hdigits e (List.mem_of_mem_drop he), by simp⟩
            exact ⟨c, rest.take k, by rw [hk, hhead, List.take_succ_cons], hc⟩
        · split
          · exact ⟨hzero, .inl rfl, (allDigits_zeros _).append hdigits, by simp⟩
          · refine ⟨fun e he => hdigits e (List.mem_of_mem_take he), .inr ?_,
              fun e he => hdigits e (List.mem_of_mem_drop he), ?_⟩
            · exact ⟨c, [], by rw [hhead, List.take_succ_cons, List.take_zero], hc⟩
            · intro sign exponent h
              cases h
              exact ⟨Nat.toDigits_ne_nil, allDigits_toDigits _⟩

end JsonNumeral

end Stepwise
