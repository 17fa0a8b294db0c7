import Stepwise.Proofs.CanonicalForm

set_option autoImplicit false

/-! # Numbers and operators in the canonical form

The canonical form exchanges words, radical signs, parentheses and blanks. The digits, points and
operator signs of a query are its *quantities*: every rule writes those that it has read, in the
same order, so a pass keeps those of the whole text, and so do all four. A query that mentions no
root loses nothing but the white space at its ends.
-/

namespace Stepwise

/-- An ASCII digit, a point, or an operator sign. -/
def isQuantityChar (c : Char) : Bool := c.isDigit || c ∈ ['.', '+', '-', '*', '/']

/-- The digits, points and operator signs of a text, in order. -/
def quantities (t : Text) : Text := t.filter isQuantityChar

/-- The word stands in the text, in some letter case. -/
def Mentions (word t : Text) : Prop := word <:+: t.map Char.toLower

instance (word t : Text) : Decidable (Mentions word t) :=
  inferInstanceAs (Decidable (_ <:+: _))

/-! ## Texts without quantities -/

theorem quantities_append (t u : Text) : quantities (t ++ u) = quantities t ++ quantities u :=
  List.filter_append t u

theorem quantities_eq_nil {t : Text} (h : ∀ c ∈ t, isQuantityChar c = false) :
    quantities t = [] :=
  List.filter_eq_nil_iff.2 fun c hc => by simp [h c hc]

theorem isArithmeticChar_of_isQuantityChar {c : Char} (h : isQuantityChar c = true) :
    isArithmeticChar c = true := by
  simp only [isQuantityChar, Bool.or_eq_true, decide_eq_true_eq] at h
  rcases h with hdigit | hsign
  · simp [isArithmeticChar, hdigit]
  · simp only [List.mem_cons, List.not_mem_nil, or_false] at hsign
    rcases hsign with rfl | rfl | rfl | rfl | rfl <;> decide

theorem isQuantityChar_of_isAlpha {c : Char} (h : c.isAlpha = true) :
    isQuantityChar c = false := by
  cases hquantity : isQuantityChar c with
  | false => rfl
  | true =>
      rw [not_isAlpha_of_isArithmeticChar (isArithmeticChar_of_isQuantityChar hquantity)] at h
      cases h

theorem isQuantityChar_of_isWhiteSpace {c : Char} (h : isWhiteSpace c = true) :
    isQuantityChar c = false := by
  rw [isQuantityChar, not_isDigit_of_isWhiteSpace h, Bool.false_or, decide_eq_false_iff_not]
  intro hsign
  simp only [List.mem_cons, List.not_mem_nil, or_false] at hsign
  rcases hsign with rfl | rfl | rfl | rfl | rfl <;> exact absurd h (by decide)

theorem AllWhiteSpace.quantities_eq_nil {t : Text} (h : AllWhiteSpace t) : quantities t = [] :=
  Stepwise.quantities_eq_nil fun c hc => isQuantityChar_of_isWhiteSpace (h c hc)

theorem AllBlank.quantities_eq_nil {t : Text} (h : AllBlank t) : quantities t = [] :=
  h.allWhiteSpace.quantities_eq_nil

theorem IsWord.quantities_eq_nil {word t : Text} (h : IsWord word t)
    (hword : quantities word = []) : quantities t = [] := by
  have htest : isQuantityChar ∘ Char.toLower = isQuantityChar :=
    funext (apply_toLower fun _ => isQuantityChar_of_isAlpha)
  rw [← h, quantities, List.filter_map, htest] at hword
  exact List.map_eq_nil_iff.1 hword

theorem OptionalSign.quantities_eq_nil {c : Char} {rest sign : Text}
    (h : OptionalSign c rest sign) (hc : isQuantityChar c = false) : quantities sign = [] := by
  cases h with
  | present hgap =>
      rw [quantities_append, hgap.quantities_eq_nil]
      exact Stepwise.quantities_eq_nil (List.forall_mem_singleton.2 hc)
  | absent => rfl

theorem quantities_trim (t : Text) : quantities (Text.trim t) = quantities t :=
  Text.filter_trim (fun _ => isQuantityChar_of_isWhiteSpace) t

/-! ## Phrasings -/

theorem quantities_callOpening : quantities callOpening = [] := by decide

/-- A root call has the quantities of its literal. -/
theorem quantities_rootCall (argument : Literal) :
    quantities (rootCall argument) = quantities argument.text := by
  have hclosing : quantities [')'] = [] := by decide
  rw [rootCall, quantities_append, quantities_append, quantities_callOpening, hclosing,
    List.nil_append, List.append_nil]

theorem SquareRootPhrase.quantities_eq {argument : Literal} {t : Text}
    (h : SquareRootPhrase argument t) : quantities t = quantities argument.text := by
  obtain ⟨hsquare, hgap₁, hroot, hgap₂, hof, hgap₃, -⟩ := h
  simp only [quantities_append, hsquare.quantities_eq_nil (by decide), hgap₁.quantities_eq_nil,
    hroot.quantities_eq_nil (by decide), hgap₂.quantities_eq_nil,
    hof.quantities_eq_nil (by decide), hgap₃.quantities_eq_nil, List.nil_append]

theorem RootPhrase.quantities_eq {argument : Literal} {t : Text} (h : RootPhrase argument t) :
    quantities t = quantities argument.text := by
  obtain ⟨hroot, hgap, -⟩ := h
  simp only [quantities_append, hroot.quantities_eq_nil (by decide), hgap.quantities_eq_nil,
    List.nil_append]

theorem OpenCall.quantities_eq {argument : Literal} {t : Text} (h : OpenCall argument t) :
    quantities t = quantities argument.text := by
  obtain ⟨hopening, hgap, -⟩ := h
  simp only [quantities_append, hopening.quantities_eq_nil (by decide), hgap.quantities_eq_nil,
    List.nil_append]

/-! ## Rules and passes -/

/-- The rule writes the quantities that it reads. -/
def PhrasingRule.KeepsQuantities (rule : PhrasingRule) : Prop :=
  ∀ t written rest, rule t = some (written, rest) → quantities (written ++ rest) = quantities t

theorem radicalRule_keepsQuantities : radicalRule.KeepsQuantities := by
  intro t written rest h
  obtain ⟨rfl, opening, hopening, rfl⟩ := radicalRule_eq_some_iff.1 h
  have hsign : quantities ['√'] = [] := by decide
  rw [← List.singleton_append]
  simp only [quantities_append, quantities_callOpening, hsign,
    hopening.quantities_eq_nil (by decide), List.nil_append]

theorem phraseRule_keepsQuantities : phraseRule.KeepsQuantities := by
  intro t written rest h
  obtain ⟨argument, phrase, hphrase, -, rfl, rfl⟩ := phraseRule_eq_some_iff.1 h
  rw [quantities_append, quantities_append, quantities_rootCall, hphrase.quantities_eq]

theorem callRule_keepsQuantities : callRule.KeepsQuantities := by
  intro t written rest h
  obtain ⟨argument, call, closing, hcall, hclosing, -, rfl, rfl⟩ := callRule_eq_some_iff.1 h
  simp only [quantities_append, quantities_rootCall, hcall.quantities_eq,
    hclosing.quantities_eq_nil (by decide), List.nil_append]

theorem PhrasingRule.KeepsQuantities.replaceAll {rule : PhrasingRule} (hrule : rule.KeepsQuantities)
    (t : Text) : quantities (replaceAll rule t) = quantities t := by
  -- a character that is copied is kept if it is a quantity, and so is the rest
  have hcopied (c : Char) (rest : Text)
      (ih : quantities (Stepwise.replaceAll rule rest) = quantities rest) :
      quantities (c :: Stepwise.replaceAll rule rest) = quantities (c :: rest) := by
    rw [← List.singleton_append, quantities_append, ih, ← quantities_append, List.singleton_append]
  fun_induction Stepwise.replaceAll rule t with
  | case1 => rfl
  | case2 c rest written after hmatch hlt ih =>
      rw [quantities_append, ih, ← quantities_append, hrule _ _ _ hmatch]
  | case3 c rest written after hmatch hlt ih => exact hcopied c rest ih
  | case4 c rest hmatch ih => exact hcopied c rest ih

theorem quantities_leadingRoot? (t : Text) :
    quantities ((leadingRoot? t).getD t) = quantities t := by
  cases hleading : leadingRoot? t with
  | none => rfl
  | some written =>
      obtain ⟨argument, hroot, rfl⟩ := leadingRoot?_eq_some_iff.1 hleading
      rw [Option.getD_some, quantities_rootCall, hroot.quantities_eq]

theorem quantities_canonical (query : Text) : quantities (canonical query) = quantities query := by
  simp only [canonical]
  rw [callRule_keepsQuantities.replaceAll, quantities_leadingRoot?,
    phraseRule_keepsQuantities.replaceAll, radicalRule_keepsQuantities.replaceAll, quantities_trim]

/-! ## Queries that mention no root -/

theorem IsWord.mentions {word spelling : Text} (h : IsWord word spelling) (before after : Text) :
    Mentions word (before ++ (spelling ++ after)) := by
  refine ⟨before.map Char.toLower, after.map Char.toLower, ?_⟩
  rw [List.map_append, List.map_append, h, List.append_assoc]

theorem Mentions.of_trim {word t : Text} (h : Mentions word (Text.trim t)) : Mentions word t :=
  h.trans ((Text.trim_infix t).map Char.toLower)

/-- Every phrasing that the rules look for has a radical sign, the word "root" or an opened
call. -/
theorem isCanonical_of_not_mentions {t : Text} (hradical : '√' ∉ t) (hroot : ¬ Mentions rootWord t)
    (hcall : ¬ Mentions callOpening t) : IsCanonical t := by
  refine ⟨hradical, ?_, ?_, ?_⟩
  · rintro argument before _ after
      @⟨square, root, of, gap₁, gap₂, gap₃, -, -, hword, -, -, -, -⟩ rfl
    have hmentions := hword.mentions (before ++ (square ++ gap₁))
      (gap₂ ++ (of ++ (gap₃ ++ argument.text)) ++ after)
    exact hroot (by simpa using hmentions)
  · rintro argument ⟨hword, -, -⟩
    exact hroot (hword.mentions [] _)
  · rintro argument before _ after @⟨opening, gap, hopening, -, -⟩ - rfl
    have hmentions := hopening.mentions before (gap ++ (argument.text ++ after))
    exact absurd (by simpa using hmentions) hcall

theorem not_mem_trim {c : Char} {t : Text} (h : c ∉ t) : c ∉ Text.trim t :=
  fun hc => h ((Text.trim_infix t).subset hc)

/-- The canonical form keeps the digits, points and operator signs of a query in their order, and
only trims a query without a radical sign, the word "root" and the opening of a call. -/
theorem canonical_keepsQuantities (query : Text) :
    quantities (canonical query) = quantities query ∧
      ('√' ∉ query → ¬ Mentions rootWord query → ¬ Mentions callOpening query →
        canonical query = Text.trim query) := by
  refine ⟨quantities_canonical query, fun hradical hroot hcall => ?_⟩
  have hcanonical : IsCanonical (Text.trim query) :=
    isCanonical_of_not_mentions (not_mem_trim hradical) (fun h => hroot h.of_trim)
      fun h => hcall h.of_trim
  rw [← canonical_trim]
  exact canonical_eq_self (Text.isTrimmed_trim query) hcanonical

/-- The name of the root without a parenthesis behind it is left alone. -/
theorem canonical_keepsQuantities_name :
    '√' ∉ " Sqrt 4 * -1.5\t".toList ∧ ¬ Mentions rootWord " Sqrt 4 * -1.5\t".toList ∧
      ¬ Mentions callOpening " Sqrt 4 * -1.5\t".toList ∧
      canonical " Sqrt 4 * -1.5\t".toList = "Sqrt 4 * -1.5".toList ∧
      quantities (canonical " Sqrt 4 * -1.5\t".toList) = "4*-1.5".toList := by
  have hradical : '√' ∉ " Sqrt 4 * -1.5\t".toList := by decide
  have hroot : ¬ Mentions rootWord " Sqrt 4 * -1.5\t".toList := by decide +kernel
  have hcall : ¬ Mentions callOpening " Sqrt 4 * -1.5\t".toList := by decide +kernel
  obtain ⟨hquantities, htrim⟩ := canonical_keepsQuantities " Sqrt 4 * -1.5\t".toList
  refine ⟨hradical, hroot, hcall, (htrim hradical hroot hcall).trans (by decide), ?_⟩
  rw [hquantities]
  decide

end Stepwise
