import Mathlib.Data.List.Basic
import Mathlib.Data.List.TakeWhile
import Stepwise.Text.Arithmetic
import Stepwise.Text.Scan

set_option autoImplicit false

/-! # What the scanners take

The scanners of a text take a run of characters from its start and leave the rest. This file
describes each of them from both sides: a text that is scanned is what was taken followed by
the rest, and a text that starts with a thing of the right shape is scanned as that thing,
provided that the rest does not go on with it.
-/

namespace Stepwise

/-- A computation that succeeds has succeeded in its first part. -/
theorem exists_ok_of_bind_eq_ok {ε α β : Type} {x : Except ε α} {f : α → Except ε β} {b : β}
    (h : x >>= f = .ok b) : ∃ a, x = .ok a ∧ f a = .ok b := by
  cases x with
  | error e => cases h
  | ok a => exact ⟨a, rfl, h⟩

/-! ## Runs of one class -/

/-- A text of blanks. -/
def AllBlank (t : Text) : Prop := ∀ c ∈ t, isBlank c = true

/-- A text of white space. -/
def AllWhiteSpace (t : Text) : Prop := ∀ c ∈ t, isWhiteSpace c = true

/-- A text of digits. -/
def AllDigits (t : Text) : Prop := ∀ c ∈ t, c.isDigit = true

instance (t : Text) : Decidable (AllBlank t) :=
  decidable_of_iff (t.all isBlank = true) List.all_eq_true

instance (t : Text) : Decidable (AllWhiteSpace t) :=
  decidable_of_iff (t.all isWhiteSpace = true) List.all_eq_true

instance (t : Text) : Decidable (AllDigits t) :=
  decidable_of_iff (t.all Char.isDigit = true) List.all_eq_true

theorem allBlank_nil : AllBlank [] := fun _ h => absurd h List.not_mem_nil

theorem AllBlank.allWhiteSpace {t : Text} (h : AllBlank t) : AllWhiteSpace t :=
  fun c hc => isWhiteSpace_of_isBlank (h c hc)

theorem not_isDigit_of_isWhiteSpace {c : Char} (h : isWhiteSpace c = true) :
    c.isDigit = false := by
  cases hd : c.isDigit with
  | false => rfl
  | true =>
      -- the digits fill the code points from 48 to 57, where no white space is
      have hlow : 48 ≤ c.toNat := by
        simp only [Char.isDigit, Bool.and_eq_true, decide_eq_true_eq] at hd
        exact UInt32.le_iff_toNat_le.1 hd.1
      have hhigh : c.toNat ≤ 57 := by
        simp only [Char.isDigit, Bool.and_eq_true, decide_eq_true_eq] at hd
        exact UInt32.le_iff_toNat_le.1 hd.2
      simp only [isWhiteSpace, Bool.or_eq_true, Bool.and_eq_true, decide_eq_true_eq] at h
      omega

theorem not_isWhiteSpace_of_isDigit {c : Char} (h : c.isDigit = true) : isWhiteSpace c = false := by
  by_contra hwhite
  rw [not_isDigit_of_isWhiteSpace (eq_true_of_ne_false hwhite)] at h
  cases h

theorem not_isBlank_of_isDigit {c : Char} (h : c.isDigit = true) : isBlank c = false := by
  by_contra hblank
  have hwhite := isWhiteSpace_of_isBlank (eq_true_of_ne_false hblank)
  rw [not_isWhiteSpace_of_isDigit h] at hwhite
  cases hwhite

/-! ## Blanks -/

namespace Text

theorem skipBlanks_append {blanks : Text} (h : AllBlank blanks) (t : Text) :
    skipBlanks (blanks ++ t) = skipBlanks t :=
  List.dropWhile_append_of_pos h

theorem skipBlanks_cons {c : Char} (h : isBlank c = false) (t : Text) :
    skipBlanks (c :: t) = c :: t :=
  List.dropWhile_cons_of_neg (by simp [h])

/-- Skipping blanks takes blanks away and nothing else. -/
theorem exists_blanks (t : Text) : ∃ blanks, AllBlank blanks ∧ t = blanks ++ skipBlanks t :=
  ⟨t.takeWhile isBlank, fun _ hc => List.mem_takeWhile_imp hc,
    List.takeWhile_append_dropWhile.symm⟩

theorem skipBlanks_eq_nil_iff (t : Text) : skipBlanks t = [] ↔ AllBlank t :=
  List.dropWhile_eq_nil_iff

/-- The text does not start with a blank. -/
def NoBlankAhead (t : Text) : Prop := ∀ c rest, t = c :: rest → isBlank c = false

theorem skipBlanks_eq_self {t : Text} (h : NoBlankAhead t) : skipBlanks t = t := by
  cases t with
  | nil => rfl
  | cons c t => exact skipBlanks_cons (h c t rfl) t

/-- A gap of blanks ends where the text starts. -/
theorem skipBlanks_gap {gap t : Text} (hgap : AllBlank gap) (h : NoBlankAhead t) :
    skipBlanks (gap ++ t) = t := by
  rw [skipBlanks_append hgap, skipBlanks_eq_self h]

theorem noBlankAhead_cons {c : Char} (h : isBlank c = false) (t : Text) :
    NoBlankAhead (c :: t) := by
  intro d rest ht
  cases ht
  exact h

/-- What is left behind the blanks is what stands behind a gap. -/
theorem skipBlanks_eq_iff {t rest : Text} (h : NoBlankAhead rest) :
    skipBlanks t = rest ↔ ∃ gap, AllBlank gap ∧ t = gap ++ rest := by
  constructor
  · rintro rfl
    exact exists_blanks t
  · rintro ⟨gap, hgap, rfl⟩
    exact skipBlanks_gap hgap h

/-! ## White space -/

/-- Trimming takes white space away and nothing else. -/
theorem exists_trim (t : Text) : ∃ before after, AllWhiteSpace before ∧ AllWhiteSpace after ∧
    t = before ++ trim t ++ after := by
  have hstart : t = t.takeWhile isWhiteSpace ++ trimStart t :=
    List.takeWhile_append_dropWhile.symm
  have hend : trimStart t =
      trim t ++ ((trimStart t).reverse.takeWhile isWhiteSpace).reverse := by
    rw [trim, trimEnd, ← List.reverse_append, List.takeWhile_append_dropWhile,
      List.reverse_reverse]
  refine ⟨t.takeWhile isWhiteSpace, ((trimStart t).reverse.takeWhile isWhiteSpace).reverse,
    fun _ hc => List.mem_takeWhile_imp hc,
    fun _ hc => List.mem_takeWhile_imp (List.mem_reverse.1 hc), ?_⟩
  rw [List.append_assoc, ← hend, ← hstart]

theorem trim_infix (t : Text) : trim t <:+: t := by
  obtain ⟨before, after, -, -, ht⟩ := exists_trim t
  exact ⟨before, after, ht.symm⟩

/-- Trimming keeps all characters of a class without white space. -/
theorem filter_trim {isKept : Char → Bool} (h : ∀ c, isWhiteSpace c = true → isKept c = false)
    (t : Text) : (trim t).filter isKept = t.filter isKept := by
  obtain ⟨before, after, hbefore, hafter, ht⟩ := exists_trim t
  have hnone : ∀ space : Text, AllWhiteSpace space → space.filter isKept = [] :=
    fun space hspace => List.filter_eq_nil_iff.2 fun c hc => by simp [h c (hspace c hc)]
  conv_rhs => rw [ht]
  rw [List.filter_append, List.filter_append, hnone before hbefore, hnone after hafter,
    List.nil_append, List.append_nil]

theorem allWhiteSpace_of_trim {t : Text} (h : AllWhiteSpace (trim t)) : AllWhiteSpace t := by
  obtain ⟨before, after, hbefore, hafter, ht⟩ := exists_trim t
  intro c hc
  rw [ht, List.mem_append, List.mem_append] at hc
  rcases hc with (hc | hc) | hc
  · exact hbefore c hc
  · exact h c hc
  · exact hafter c hc

theorem trim_eq_nil_iff (t : Text) : trim t = [] ↔ AllWhiteSpace t := by
  constructor
  · intro h
    exact allWhiteSpace_of_trim (by rw [h]; exact fun _ hc => absurd hc List.not_mem_nil)
  · intro h
    rw [trim, trimStart, List.dropWhile_eq_nil_iff.2 h]
    rfl

/-- The text neither starts nor ends with white space. -/
structure IsTrimmed (t : Text) : Prop where
  head : ∀ c ∈ t.head?, isWhiteSpace c = false
  last : ∀ c ∈ t.getLast?, isWhiteSpace c = false

/-- White space at the end is cut off up to the last character that is none. -/
theorem trimEnd_append {t after : Text} (hafter : AllWhiteSpace after)
    (h : ∀ c ∈ t.getLast?, isWhiteSpace c = false) : trimEnd (t ++ after) = t := by
  have hreverse : AllWhiteSpace after.reverse := fun c hc => hafter c (List.mem_reverse.1 hc)
  rw [trimEnd, List.reverse_append, List.dropWhile_append_of_pos hreverse]
  -- read backwards, the text starts with its last character
  rcases List.eq_nil_or_concat' t with rfl | ⟨init, d, rfl⟩
  · rfl
  · have hd : isWhiteSpace d = false := h d (by simp)
    rw [List.reverse_append, List.reverse_singleton, List.singleton_append,
      List.dropWhile_cons_of_neg (by simp [hd])]
    simp

/-- Trimming takes away exactly what stands around a trimmed text. -/
theorem trim_append {before t after : Text} (hbefore : AllWhiteSpace before)
    (hafter : AllWhiteSpace after) (h : IsTrimmed t) : trim (before ++ t ++ after) = t := by
  cases ht : t with
  | nil =>
      rw [trim_eq_nil_iff, List.append_nil]
      exact List.forall_mem_append.2 ⟨hbefore, hafter⟩
  | cons c rest =>
      have hc : isWhiteSpace c = false := h.head c (by simp [ht])
      have hstart : trimStart (before ++ (c :: rest) ++ after) = c :: rest ++ after := by
        rw [trimStart, List.append_assoc, List.dropWhile_append_of_pos hbefore]
        exact List.dropWhile_cons_of_neg (by simp [hc])
      rw [trim, hstart, trimEnd_append hafter (ht ▸ h.last)]

theorem trim_eq_self {t : Text} (h : IsTrimmed t) : trim t = t := by
  simpa using trim_append (fun _ hc => absurd hc List.not_mem_nil)
    (fun _ hc => absurd hc List.not_mem_nil) h

theorem isTrimmed_trim (t : Text) : IsTrimmed (trim t) := by
  constructor
  · intro c hc
    -- a character that is left at the start is the one that was there before the end was cut
    have hsplit : trimStart t = trim t ++
        ((trimStart t).reverse.takeWhile isWhiteSpace).reverse := by
      rw [trim, trimEnd, ← List.reverse_append, List.takeWhile_append_dropWhile,
        List.reverse_reverse]
    have hhead : (trimStart t).head? = some c := by
      rw [hsplit, List.head?_append, Option.mem_def.1 hc]
      rfl
    have h := List.head?_dropWhile_not isWhiteSpace t
    rw [show t.dropWhile isWhiteSpace = trimStart t from rfl, hhead] at h
    simpa using h
  · intro c hc
    have h := List.head?_dropWhile_not isWhiteSpace (trimStart t).reverse
    rw [trim, trimEnd, List.getLast?_reverse] at hc
    rw [Option.mem_def.1 hc] at h
    simpa using h

end Text

theorem isTrimmed_of_forall {t : Text} (h : ∀ c ∈ t, isWhiteSpace c = false) :
    Text.IsTrimmed t :=
  ⟨fun c hc => h c (List.mem_of_mem_head? hc), fun c hc => h c (List.mem_of_mem_getLast? hc)⟩

/-! ## Words -/

/-- The text is the word in some letter case. -/
def IsWord (word t : Text) : Prop := t.map Char.toLower = word

instance (word t : Text) : Decidable (IsWord word t) := inferInstanceAs (Decidable (_ = _))

theorem dropWord?_eq_some_iff {word t rest : Text} :
    dropWord? word t = some rest ↔ ∃ spelling, IsWord word spelling ∧ t = spelling ++ rest := by
  constructor
  · intro h
    induction word generalizing t with
    | nil =>
        cases h
        exact ⟨[], rfl, rfl⟩
    | cons w word ih =>
        cases t with
        | nil => cases h
        | cons c t =>
            rw [dropWord?] at h
            split at h
            · next hc =>
                obtain ⟨spelling, hword, rfl⟩ := ih h
                exact ⟨c :: spelling, by rw [IsWord, List.map_cons, hc, hword], rfl⟩
            · cases h
  · rintro ⟨spelling, hword, rfl⟩
    induction spelling generalizing word with
    | nil =>
        cases hword
        rfl
    | cons c spelling ih =>
        cases hword
        rw [List.map_cons, List.cons_append, dropWord?, if_pos rfl]
        exact ih rfl

theorem IsWord.dropWord? {word spelling : Text} (h : IsWord word spelling) (rest : Text) :
    dropWord? word (spelling ++ rest) = some rest :=
  dropWord?_eq_some_iff.2 ⟨spelling, h, rfl⟩

/-! ## Characters -/

theorem expectChar_sound {c : Char} {t rest : Text} (h : expectChar c t = .ok rest) :
    t = c :: rest := by
  unfold expectChar at h
  split at h
  · split at h
    · next hd => cases h; rw [hd]
    · cases h
  · cases h

theorem expectEnd_sound {t : Text} (h : expectEnd t = .ok ()) : t = [] := by
  unfold expectEnd at h
  split at h
  · rfl
  · cases h

/-! ## Digits -/

/-- The text does not go on with a digit. -/
def NoDigitAhead (t : Text) : Prop := ∀ c rest, t = c :: rest → c.isDigit = false

theorem noDigitAhead_cons {c : Char} (h : c.isDigit = false) (t : Text) :
    NoDigitAhead (c :: t) := by
  intro d rest ht
  cases ht
  exact h

theorem leadingDigits_append {digits rest : Text} (h : AllDigits digits)
    (hrest : NoDigitAhead rest) : leadingDigits (digits ++ rest) = digits := by
  rw [leadingDigits, List.takeWhile_append_of_pos h]
  cases rest with
  | nil => simp
  | cons c rest => simp [hrest c rest rfl]

theorem afterDigits_append {digits rest : Text} (h : AllDigits digits)
    (hrest : NoDigitAhead rest) : afterDigits (digits ++ rest) = rest := by
  rw [afterDigits, List.dropWhile_append_of_pos h]
  cases rest with
  | nil => simp
  | cons c rest => simp [hrest c rest rfl]

theorem allDigits_leadingDigits (t : Text) : AllDigits (leadingDigits t) :=
  fun _ hc => List.mem_takeWhile_imp hc

theorem leadingDigits_eq_nil {c : Char} (h : c.isDigit = false) (t : Text) :
    leadingDigits (c :: t) = [] := by
  simp [leadingDigits, h]

/-! ## Decimals -/

/-- The shape `d+` or `d+.d+` behind an optional minus sign. -/
inductive Literal.IsDecimal : Literal → Prop
  | whole {negative : Bool} {digits : Text} (h : digits ≠ []) (hd : AllDigits digits) :
      IsDecimal ⟨negative, digits, none⟩
  | pointed {negative : Bool} {digits fraction : Text} (h : digits ≠ []) (hd : AllDigits digits)
      (hf : fraction ≠ []) (hfd : AllDigits fraction) :
      IsDecimal ⟨negative, digits, some fraction⟩

/-- The literal without its sign. -/
def Literal.unsigned (l : Literal) : Literal := { l with negative := false }

theorem Literal.text_eq (l : Literal) :
    l.text = (if l.negative then ['-'] else []) ++ l.unsigned.text := by
  simp [Literal.text, Literal.unsigned]

theorem scanUnsigned_sound {negative : Bool} {t rest : Text} {l : Literal}
    (h : scanUnsigned negative t = .ok (l, rest)) :
    l.negative = negative ∧ l.IsDecimal ∧ t = l.unsigned.text ++ rest := by
  have hsplit := leadingDigits_append_afterDigits t
  have hdigits := allDigits_leadingDigits t
  rw [scanUnsigned] at h
  split at h
  · cases h
  · next hne =>
      split at h
      · next tail hpoint =>
          have ht : t = leadingDigits t ++ '.' :: tail := by rw [← hpoint, hsplit]
          split at h
          · -- a point that no digit follows is left in the rest
            cases h
            exact ⟨rfl, .whole hne hdigits, by simpa [Literal.unsigned, Literal.text] using ht⟩
          · next hfne =>
              cases h
              refine ⟨rfl, .pointed hne hdigits hfne (allDigits_leadingDigits tail), ?_⟩
              simpa [Literal.unsigned, Literal.text, leadingDigits_append_afterDigits] using ht
      · cases h
        refine ⟨rfl, .whole hne hdigits, ?_⟩
        simpa [Literal.unsigned, Literal.text] using hsplit.symm

/-- What is read as a literal with an optional sign is the text of a literal. -/
theorem scanSigned_sound {t rest : Text} {l : Literal} (h : scanSigned t = .ok (l, rest)) :
    l.IsDecimal ∧ t = l.text ++ rest := by
  unfold scanSigned at h
  split at h
  · next tail =>
      obtain ⟨hsign, hdecimal, htail⟩ := scanUnsigned_sound h
      exact ⟨hdecimal, by rw [Literal.text_eq, hsign, htail]; simp⟩
  · obtain ⟨hsign, hdecimal, ht⟩ := scanUnsigned_sound h
    exact ⟨hdecimal, by rw [Literal.text_eq, hsign]; simpa using ht⟩

end Stepwise
