import Stepwise.Proofs.Phrasing

set_option autoImplicit false

/-! # Letter case

Whatever looks at a query reads its words in any letter case, and no other letter. So it does not
matter whether a text is put into lower case before or after: the scanners, the rules of the
canonical form and the passes commute with `Text.lower`, and the tests for cues give the same
answer.
-/

namespace Stepwise

/-! ## Lower case -/

/-- The text in lower case. Only ASCII letters have another lower case. -/
def Text.lower (t : Text) : Text := t.map Char.toLower

namespace Text

theorem lower_cons (c : Char) (t : Text) : lower (c :: t) = c.toLower :: lower t := rfl

theorem lower_append (t u : Text) : lower (t ++ u) = lower t ++ lower u := List.map_append

theorem lower_eq_nil_iff {t : Text} : lower t = [] ↔ t = [] := List.map_eq_nil_iff

theorem lower_eq_self {t : Text} (h : ∀ c ∈ t, c.isAlpha = false) : lower t = t := by
  induction t with
  | nil => rfl
  | cons c t ih =>
      rw [lower_cons, toLower_of_not_isAlpha (h c List.mem_cons_self),
        ih fun d hd => h d (List.mem_cons_of_mem c hd)]

/-- A sign that is no letter stands in a text exactly where it stands in its lower case. -/
theorem lower_eq_cons_iff {c : Char} (hc : c.isAlpha = false) {t u : Text} :
    lower t = c :: u ↔ ∃ rest, t = c :: rest ∧ lower rest = u := by
  constructor
  · intro h
    obtain ⟨d, rest, rfl, hd, hrest⟩ := List.map_eq_cons_iff.1 h
    exact ⟨rest, by rw [(toLower_eq_iff hc).1 hd], hrest⟩
  · rintro ⟨rest, rfl, rfl⟩
    rw [lower_cons, toLower_of_not_isAlpha hc]

theorem mem_lower_iff {c : Char} (hc : c.isAlpha = false) {t : Text} : c ∈ lower t ↔ c ∈ t := by
  simp [lower, toLower_eq_iff hc]

theorem head?_lower_eq_some_iff {c : Char} (hc : c.isAlpha = false) {t : Text} :
    (lower t).head? = some c ↔ t.head? = some c := by
  simp [lower, toLower_eq_iff hc]

theorem getLast?_lower_eq_some_iff {c : Char} (hc : c.isAlpha = false) {t : Text} :
    (lower t).getLast? = some c ↔ t.getLast? = some c := by
  simp [lower, toLower_eq_iff hc]

section

variable {test : Char → Bool} (htest : ∀ c, test c.toLower = test c)
include htest

theorem dropWhile_lower (t : Text) : (lower t).dropWhile test = lower (t.dropWhile test) := by
  rw [lower, List.dropWhile_map, show test ∘ Char.toLower = test from funext htest, lower]

theorem takeWhile_lower (t : Text) : (lower t).takeWhile test = lower (t.takeWhile test) := by
  rw [lower, List.takeWhile_map, show test ∘ Char.toLower = test from funext htest, lower]

theorem any_lower (t : Text) : (lower t).any test = t.any test := by
  rw [lower, List.any_map, show test ∘ Char.toLower = test from funext htest]

theorem all_lower (t : Text) : (lower t).all test = t.all test := by
  rw [lower, List.all_map, show test ∘ Char.toLower = test from funext htest]

end

end Text

open Text

/-! ### Classes of characters -/

theorem not_isArithmeticChar_of_isAlpha {c : Char} (h : c.isAlpha = true) :
    isArithmeticChar c = false := by
  refine eq_false_of_ne_true fun hc => ?_
  rw [not_isAlpha_of_isArithmeticChar hc] at h
  cases h

theorem isArithmeticChar_toLower (c : Char) : isArithmeticChar c.toLower = isArithmeticChar c :=
  apply_toLower (fun _ => not_isArithmeticChar_of_isAlpha) c

/-- Letters are in none of the classes that arithmetic text is made of. -/
theorem apply_toLower_of_arithmetic {test : Char → Bool}
    (h : ∀ c, test c = true → isArithmeticChar c = true) (c : Char) :
    test c.toLower = test c := by
  refine apply_toLower (fun d hd => eq_false_of_ne_true fun htest => ?_) c
  have hforeign := not_isArithmeticChar_of_isAlpha hd
  rw [h d htest] at hforeign
  cases hforeign

theorem isWhiteSpace_toLower (c : Char) : isWhiteSpace c.toLower = isWhiteSpace c :=
  apply_toLower_of_arithmetic (fun d hd => by simp [isArithmeticChar, hd]) c

theorem isBlank_toLower (c : Char) : isBlank c.toLower = isBlank c :=
  apply_toLower_of_arithmetic
    (fun d hd => by simp [isArithmeticChar, isWhiteSpace_of_isBlank hd]) c

theorem isDigit_toLower (c : Char) : c.toLower.isDigit = c.isDigit :=
  apply_toLower_of_arithmetic (fun d hd => by simp [isArithmeticChar, hd]) c

theorem isAlphabetic_toLower (c : Char) : isAlphabetic c.toLower = isAlphabetic c :=
  apply_toLower (fun _ => isAlphabetic_of_isAlpha) c

/-! ## Scanners -/

theorem skipBlanks_lower (t : Text) : skipBlanks (lower t) = lower (skipBlanks t) :=
  dropWhile_lower isBlank_toLower t

theorem trim_lower (t : Text) : trim (lower t) = lower (trim t) := by
  have hreverse (u : Text) : (lower u).reverse = lower u.reverse := List.map_reverse.symm
  rw [trim, trim, trimEnd, trimEnd, trimStart, dropWhile_lower isWhiteSpace_toLower, hreverse,
    dropWhile_lower isWhiteSpace_toLower, hreverse, trimStart]

theorem leadingDigits_lower (t : Text) : leadingDigits (lower t) = leadingDigits t := by
  rw [leadingDigits, takeWhile_lower isDigit_toLower]
  refine lower_eq_self fun c hc => not_isAlpha_of_isArithmeticChar ?_
  simp [isArithmeticChar, List.mem_takeWhile_imp hc]

theorem afterDigits_lower (t : Text) : afterDigits (lower t) = lower (afterDigits t) :=
  dropWhile_lower isDigit_toLower t

theorem dropWord?_lower (word t : Text) :
    dropWord? word (lower t) = (dropWord? word t).map lower := by
  induction word generalizing t with
  | nil => rfl
  | cons w word ih =>
      cases t with
      | nil => rfl
      | cons c t =>
          rw [lower_cons, dropWord?, dropWord?, toLower_toLower]
          split
          · exact ih t
          · rfl

theorem scanUnsigned_lower (negative : Bool) (t : Text) :
    (scanUnsigned negative (lower t)).toOption =
      (scanUnsigned negative t).toOption.map (Prod.map id lower) := by
  unfold scanUnsigned
  rw [leadingDigits_lower, afterDigits_lower]
  cases leadingDigits t with
  | nil => rfl
  | cons d digits =>
      dsimp only
      generalize afterDigits t = after
      split
      · next tail hpoint =>
          obtain ⟨rest, rfl, rfl⟩ := (lower_eq_cons_iff (by decide)).1 hpoint
          rw [leadingDigits_lower, afterDigits_lower]
          cases hfraction : leadingDigits rest <;> simp only [hfraction] <;> rfl
      · next hpoint =>
          split
          · next rest => exact absurd rfl (hpoint (lower rest))
          · rfl

theorem scanSigned_lower (t : Text) :
    (scanSigned (lower t)).toOption = (scanSigned t).toOption.map (Prod.map id lower) := by
  unfold scanSigned
  split
  · next tail hminus =>
      obtain ⟨rest, rfl, rfl⟩ := (lower_eq_cons_iff (by decide)).1 hminus
      exact scanUnsigned_lower true rest
  · next hminus =>
      split
      · next rest => exact absurd rfl (hminus (lower rest))
      · exact scanUnsigned_lower false t

theorem literal?_lower (t : Text) :
    literal? (lower t) = (literal? t).map (Prod.map id lower) := by
  have htoOption (t : Text) : literal? t = (scanSigned t).toOption := by
    unfold literal?
    cases scanSigned t <;> rfl
  rw [htoOption, htoOption, scanSigned_lower]

/-! ## Rules and passes -/

/-- The rule reads a text in any letter case, and writes in lower case. -/
structure PhrasingRule.IgnoresCase (rule : PhrasingRule) : Prop where
  reads : ∀ t, rule (lower t) = (rule t).map (Prod.map id lower)
  writes : ∀ t written rest, rule t = some (written, rest) → lower written = written

theorem lower_callOpening : lower callOpening = callOpening := by decide

theorem lower_rootCall {argument : Literal} (h : argument.IsDecimal) :
    lower (rootCall argument) = rootCall argument := by
  have hargument : lower argument.text = argument.text := by
    refine lower_eq_self fun c hc => ?_
    rcases h.mem_text hc with hdigit | rfl | rfl
    · exact not_isAlpha_of_isArithmeticChar (by simp [isArithmeticChar, hdigit])
    · decide
    · decide
  rw [rootCall, lower_append, lower_append, lower_callOpening, hargument]
  rfl

/-- The sign behind the blanks at the start of a text stands there in lower case, too. -/
theorem skipBlanks_lower_eq_cons_iff {c : Char} (hc : c.isAlpha = false) {t u : Text} :
    skipBlanks (lower t) = c :: u ↔ ∃ rest, skipBlanks t = c :: rest ∧ lower rest = u := by
  rw [skipBlanks_lower, lower_eq_cons_iff hc]

theorem radicalRule_ignoresCase : radicalRule.IgnoresCase := by
  constructor
  · intro t
    by_cases hradical : ∃ rest, t = '√' :: rest
    · obtain ⟨rest, rfl⟩ := hradical
      rw [(lower_eq_cons_iff (by decide)).2 ⟨rest, rfl, rfl⟩, radicalRule, radicalRule]
      split
      · next tail hopen =>
          obtain ⟨after, hafter, rfl⟩ := (skipBlanks_lower_eq_cons_iff (by decide)).1 hopen
          simp only [hafter]
          rfl
      · next hopen =>
          split
          · next after hafter =>
              exact absurd ((skipBlanks_lower_eq_cons_iff (by decide)).2 ⟨after, hafter, rfl⟩)
                (hopen _)
          · rfl
    · have hnone {u : Text} (hu : ∀ rest, u ≠ '√' :: rest) : radicalRule u = none := by
        unfold radicalRule
        split
        · next rest => exact absurd rfl (hu rest)
        · rfl
      rw [hnone fun rest ht => hradical ⟨rest, ht⟩, hnone, Option.map_none]
      intro rest ht
      obtain ⟨rest, rfl, -⟩ := (lower_eq_cons_iff (by decide)).1 ht
      exact hradical ⟨rest, rfl⟩
  · intro t written rest h
    rw [(radicalRule_eq_some_iff.1 h).1, lower_callOpening]

theorem phraseRule_ignoresCase : phraseRule.IgnoresCase := by
  constructor
  · intro t
    simp only [phraseRule, Option.bind_eq_bind, dropWord?_lower, Option.bind_map, Option.map_bind,
      Function.comp_def, skipBlanks_lower, literal?_lower]
    rfl
  · intro t written rest h
    obtain ⟨argument, phrase, ⟨-, -, -, -, -, -, hargument⟩, -, -, rfl⟩ :=
      phraseRule_eq_some_iff.1 h
    exact lower_rootCall hargument

theorem callRule_ignoresCase : callRule.IgnoresCase := by
  constructor
  · intro t
    simp only [callRule, Option.bind_eq_bind, dropWord?_lower, Option.bind_map, Option.map_bind,
      Function.comp_def, skipBlanks_lower, literal?_lower]
    congr 1
    funext after
    congr 1
    funext found
    obtain ⟨argument, rest⟩ := found
    simp only [Prod.map_apply, id]
    split
    · next tail hclose =>
        obtain ⟨after, hafter, rfl⟩ := (skipBlanks_lower_eq_cons_iff (by decide)).1 hclose
        simp only [hafter]
        rfl
    · next hclose =>
        split
        · next after hafter =>
            exact absurd ((skipBlanks_lower_eq_cons_iff (by decide)).2 ⟨after, hafter, rfl⟩)
              (hclose _)
        · rfl
  · intro t written rest h
    obtain ⟨argument, call, closing, hcall, -, -, -, rfl⟩ := callRule_eq_some_iff.1 h
    exact lower_rootCall hcall.isDecimal

/-- A pass applies its rule to the lower-case text at the same places. -/
theorem PhrasingRule.IgnoresCase.replaceAll_lower {rule : PhrasingRule} (h : rule.IgnoresCase)
    (hconsumes : rule.Consumes) (t : Text) :
    replaceAll rule (lower t) = lower (replaceAll rule t) := by
  have hpass := rewrites_replaceAll hconsumes t
  generalize replaceAll rule t = out at hpass
  induction hpass with
  | done => rw [lower, List.map_nil, replaceAll]
  | @replace t written rest out hrule _ ih =>
      have hlower : rule (lower t) = some (written, lower rest) := by
        rw [h.reads, hrule]
        rfl
      rw [replaceAll_of_some hconsumes hlower, ih, lower_append, h.writes _ _ _ hrule]
  | @copy c t out hrule _ ih =>
      have hlower : rule (c.toLower :: lower t) = none := by
        rw [← lower_cons, h.reads, hrule, Option.map_none]
      rw [lower_cons, replaceAll_of_none hlower, ih, lower_cons]

theorem leadingRoot?_lower (t : Text) : leadingRoot? (lower t) = leadingRoot? t := by
  simp only [leadingRoot?, Option.bind_eq_bind, dropWord?_lower, Option.bind_map,
    Function.comp_def, skipBlanks_lower, literal?_lower, Prod.map_fst, Prod.map_snd, id,
    lower_eq_nil_iff]

theorem canonical_lower (query : Text) : canonical (lower query) = lower (canonical query) := by
  have hleading (t : Text) :
      (leadingRoot? (lower t)).getD (lower t) = lower ((leadingRoot? t).getD t) := by
    rw [leadingRoot?_lower]
    cases hroot : leadingRoot? t with
    | none => rfl
    | some written =>
        obtain ⟨argument, ⟨-, -, hargument⟩, rfl⟩ := leadingRoot?_eq_some_iff.1 hroot
        exact (lower_rootCall hargument).symm
  simp only [canonical]
  rw [trim_lower, radicalRule_ignoresCase.replaceAll_lower radicalRule_consumes,
    phraseRule_ignoresCase.replaceAll_lower phraseRule_consumes, hleading,
    callRule_ignoresCase.replaceAll_lower callRule_consumes]

/-! ## Cues -/

theorem startsRootCall_lower (t : Text) : startsRootCall (lower t) = startsRootCall t := by
  rw [startsRootCall, startsRootCall, dropWord?_lower]
  cases dropWord? sqrtWord t with
  | none => rfl
  | some rest =>
      simp only [Option.map_some, skipBlanks_lower,
        head?_lower_eq_some_iff (show '('.isAlpha = false from rfl)]

theorem startsSquareRoot_lower (t : Text) : startsSquareRoot (lower t) = startsSquareRoot t := by
  rw [startsSquareRoot, startsSquareRoot, dropWord?_lower]
  cases dropWord? squareWord t with
  | none => rfl
  | some rest => simp only [Option.map_some, skipBlanks_lower, dropWord?_lower, Option.isSome_map]

theorem startsRootWord_lower (t : Text) : startsRootWord (lower t) = startsRootWord t := by
  rw [startsRootWord, startsRootWord, dropWord?_lower]
  cases dropWord? rootWord t with
  | none => rfl
  | some rest =>
      cases rest with
      | nil => rfl
      | cons c rest => exact isBlank_toLower c

theorem somewhere_lower {test : Text → Bool} (htest : ∀ t, test (lower t) = test t) (t : Text) :
    somewhere test (lower t) = somewhere test t := by
  induction t with
  | nil => rfl
  | cons c t ih =>
      rw [somewhere, ← ih, ← htest, lower_cons]
      rfl

theorem isArithmeticText_lower (t : Text) : isArithmeticText (lower t) = isArithmeticText t := by
  rw [isArithmeticText, isArithmeticText, all_lower isArithmeticChar_toLower, lower,
    List.isEmpty_map]

theorem mathCue?_lower (query : Text) : mathCue? (lower query) = mathCue? query := by
  have hradical (t : Text) : (lower t).contains '√' = t.contains '√' := by
    rw [Bool.eq_iff_iff, List.contains_iff_mem, List.contains_iff_mem, mem_lower_iff (by decide)]
  simp only [mathCue?, trim_lower, lower_eq_nil_iff, startsRootCall_lower,
    getLast?_lower_eq_some_iff (show ')'.isAlpha = false from rfl), hradical,
    somewhere_lower startsSquareRoot_lower, startsRootWord_lower, isArithmeticText_lower,
    any_lower isDigit_toLower, any_lower isAlphabetic_toLower]

end Stepwise
