import Stepwise.Proofs.Grammar.Expressions

set_option autoImplicit false

/-! # White space in expressions

The gate in front of the grammar lets the white space of all scripts through, and all of it may also
stand behind an expression. In front of a token the grammar takes blanks only: spaces, tabs and line
breaks. A text with ordinary spaces for its white space (`Text.spaced`) is therefore the same to the
gate, and it is read as the same expression if the white space that is no blank stands at the end of
the text (`Text.BlankInside`). Elsewhere such white space is refused, and the spaces are not.
-/

namespace Stepwise

open Grammar

/-- The character, with an ordinary space for white space. -/
def asSpace (c : Char) : Char := if isWhiteSpace c then ' ' else c

/-- The text with an ordinary space for each white-space character. -/
def Text.spaced (t : Text) : Text := t.map asSpace

/-- In front of the white space at the end of the text, all white space is blanks. -/
def Text.BlankInside (t : Text) : Prop :=
  ∀ c ∈ Text.trimEnd t, isWhiteSpace c = true → isBlank c = true

/-! ## Characters -/

theorem asSpace_of_isWhiteSpace {c : Char} (h : isWhiteSpace c = true) : asSpace c = ' ' :=
  if_pos h

theorem asSpace_eq_self {c : Char} (h : isWhiteSpace c = false) : asSpace c = c :=
  if_neg (ne_true_of_eq_false h)

@[simp]
theorem isWhiteSpace_asSpace (c : Char) : isWhiteSpace (asSpace c) = isWhiteSpace c := by
  by_cases h : isWhiteSpace c = true
  · rw [asSpace_of_isWhiteSpace h, h]
    rfl
  · rw [asSpace_eq_self (eq_false_of_ne_true h)]

theorem isArithmeticChar_asSpace (c : Char) :
    isArithmeticChar (asSpace c) = isArithmeticChar c := by
  by_cases h : isWhiteSpace c = true
  · rw [asSpace_of_isWhiteSpace h, isArithmeticChar_of_isWhiteSpace h]
    rfl
  · rw [asSpace_eq_self (eq_false_of_ne_true h)]

namespace Text

@[simp]
theorem spaced_cons (c : Char) (t : Text) : spaced (c :: t) = asSpace c :: spaced t := rfl

@[simp]
theorem spaced_append (t u : Text) : spaced (t ++ u) = spaced t ++ spaced u := List.map_append

theorem spaced_eq_self {t : Text} (h : ∀ c ∈ t, isWhiteSpace c = false) : spaced t = t :=
  (List.map_congr_left fun c hc => asSpace_eq_self (h c hc)).trans (List.map_id t)

theorem allWhiteSpace_spaced_iff {t : Text} : AllWhiteSpace (spaced t) ↔ AllWhiteSpace t := by
  simp [AllWhiteSpace, spaced]

theorem allBlank_spaced {t : Text} (h : AllWhiteSpace t) : AllBlank (spaced t) := by
  intro c hc
  obtain ⟨d, hd, rfl⟩ := List.mem_map.1 hc
  rw [asSpace_of_isWhiteSpace (h d hd)]
  rfl

end Text

/-! ## The gate -/

theorem firstForeign?_spaced (t : Text) : firstForeign? t.spaced = firstForeign? t := by
  induction t with
  | nil => rfl
  | cons c t ih =>
      rw [Text.spaced_cons, firstForeign?, firstForeign?, isArithmeticChar_asSpace, ih]
      by_cases harithmetic : isArithmeticChar c = true
      · rw [if_pos harithmetic, if_pos harithmetic]
      · have hvisible : isWhiteSpace c = false :=
          eq_false_of_ne_true fun h => harithmetic (isArithmeticChar_of_isWhiteSpace h)
        rw [asSpace_eq_self hvisible]

/-- The gate gives the same answer, whatever the white space is. -/
theorem checkCharacters_spaced (t : Text) : checkCharacters t.spaced = checkCharacters t := by
  have hempty : Text.trim t.spaced = [] ↔ Text.trim t = [] := by
    rw [Text.trim_eq_nil_iff, Text.trim_eq_nil_iff, Text.allWhiteSpace_spaced_iff]
  simp only [checkCharacters, hempty, firstForeign?_spaced]

/-! ## Spelled texts -/

namespace Grammar

variable {tokens : List Token} {t : Text}

theorem Spells.isBlank_of_isWhiteSpace (h : Spells tokens t) :
    ∀ c ∈ t, isWhiteSpace c = true → isBlank c = true := by
  induction h with
  | nil => simp
  | cons hblanks hform hrest ih =>
      intro c hc hwhite
      rw [List.mem_append, List.mem_append] at hc
      rcases hc with (hc | hc) | hc
      · exact hblanks c hc
      · rw [hform.noWhiteSpace c hc] at hwhite
        cases hwhite
      · exact ih c hc hwhite

/-- A spelled text ends with a token. -/
theorem Spells.getLast?_noWhiteSpace (h : Spells tokens t) :
    ∀ c ∈ t.getLast?, isWhiteSpace c = false := by
  induction h with
  | nil => simp
  | @cons token tokens blanks rest hblanks hform hrest ih =>
      intro c hc
      have hne : token.text ++ rest ≠ [] := List.append_ne_nil_of_left_ne_nil hform.text_ne_nil rest
      rw [List.append_assoc, List.getLast?_append_of_ne_nil _ hne, List.getLast?_append] at hc
      cases hlast : rest.getLast? with
      | some d =>
          rw [hlast] at hc ih
          exact ih c hc
      | none =>
          rw [hlast] at hc
          exact hform.noWhiteSpace c (List.mem_of_getLast? hc)

theorem Spells.spaced (h : Spells tokens t) : Spells tokens t.spaced := by
  induction h with
  | nil => exact .nil
  | cons hblanks hform hrest ih =>
      rw [Text.spaced_append, Text.spaced_append, Text.spaced_eq_self hform.noWhiteSpace]
      exact .cons (Text.allBlank_spaced hblanks.allWhiteSpace) hform ih

/-- Where the spaces are, there was white space, and if it was blanks, the tokens are spelled with
it too. -/
theorem Spells.of_spaced (h : Spells tokens t.spaced)
    (hblank : ∀ c ∈ t, isWhiteSpace c = true → isBlank c = true) : Spells tokens t := by
  generalize htext : t.spaced = text at h
  induction h generalizing t with
  | nil =>
      rw [List.map_eq_nil_iff.1 htext]
      exact .nil
  | @cons token tokens blanks rest hblanks hform hrest ih =>
      obtain ⟨front, back, rfl, hfront, hback⟩ := List.map_eq_append_iff.1 htext
      obtain ⟨gap, word, rfl, hgap, hword⟩ := List.map_eq_append_iff.1 hfront
      obtain ⟨hblankFront, hblankBack⟩ := List.forall_mem_append.1 hblank
      obtain ⟨hblankGap, -⟩ := List.forall_mem_append.1 hblankFront
      have hgapWhite : AllWhiteSpace gap := by
        rw [← Text.allWhiteSpace_spaced_iff, Text.spaced, hgap]
        exact hblanks.allWhiteSpace
      -- nothing of a token is white space, so nothing of it has been replaced
      have hwordVisible : ∀ c ∈ word, isWhiteSpace c = false := by
        intro c hc
        rw [← isWhiteSpace_asSpace]
        exact hform.noWhiteSpace _ (hword ▸ List.mem_map_of_mem hc)
      have hwordText : word = token.text := (Text.spaced_eq_self hwordVisible).symm.trans hword
      rw [hwordText]
      exact .cons (fun c hc => hblankGap c hc (hgapWhite c hc)) hform (ih hblankBack hback)

end Grammar

/-! ## Expressions -/

/-- The gate gives the same answer for the text with ordinary spaces, and the text is read as an
expression exactly if that one is read as the same expression and there is no white space but blanks
in front of the white space at the end. -/
theorem parseExpression_spaced (t : Text) :
    checkCharacters t.spaced = checkCharacters t ∧
      ∀ e, parseExpression t = .ok e ↔ parseExpression t.spaced = .ok e ∧ t.BlankInside := by
  refine ⟨checkCharacters_spaced t, fun e => ?_⟩
  constructor
  · intro h
    obtain ⟨tokens, body, trailing, rfl, hspells, htrailing, hderives⟩ := parseExpression_sound h
    constructor
    · rw [Text.spaced_append]
      exact parseExpression_complete hspells.spaced
        (Text.allWhiteSpace_spaced_iff.2 htrailing) hderives
    · rw [Text.BlankInside, Text.trimEnd_append htrailing hspells.getLast?_noWhiteSpace]
      exact hspells.isBlank_of_isWhiteSpace
  · rintro ⟨h, hblank⟩
    obtain ⟨tokens, body, trailing, htext, hspells, htrailing, hderives⟩ := parseExpression_sound h
    obtain ⟨front, back, rfl, rfl, rfl⟩ := List.map_eq_append_iff.1 htext
    have hback : AllWhiteSpace back := Text.allWhiteSpace_spaced_iff.1 htrailing
    have hlast : ∀ c ∈ front.getLast?, isWhiteSpace c = false := by
      intro c hc
      rw [← isWhiteSpace_asSpace]
      exact hspells.getLast?_noWhiteSpace _ (by rw [List.getLast?_map, hc]; rfl)
    rw [Text.BlankInside, Text.trimEnd_append hback hlast] at hblank
    exact parseExpression_complete (hspells.of_spaced hblank) hback hderives

/-- A no-break space behind the first number passes the gate, and the grammar stops at it. -/
theorem parseExpression_ne_spaced :
    checkCharacters "1\u00a0+ 2".toList = .ok () ∧
      parseExpression (Text.spaced "1\u00a0+ 2".toList) =
        .ok (.binary .add (.number (.ofNat 1)) (.number (.ofNat 2))) ∧
      parseExpression "1\u00a0+ 2".toList =
        .error (.malformed "unexpected input '+ 2'") := by
  decide +kernel

end Stepwise
