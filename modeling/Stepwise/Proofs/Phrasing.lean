import Stepwise.Proofs.Literals
import Stepwise.Proofs.Replacement
import Stepwise.Proofs.Rewriting

set_option autoImplicit false

/-! # Phrasings of a root

The phrasings that the canonical form is about, as relations between a literal and a text:
`square root of N`, `root N` and an opened call `sqrt(N`, each in any letter case and with
blanks in its gaps. Each rule of the canonical form applies exactly where such a phrasing starts,
and reads its literal as far as it goes.
-/

namespace Stepwise

/-- The words "square root of" and a literal. -/
inductive SquareRootPhrase (argument : Literal) : Text → Prop
  | intro {square root of gap₁ gap₂ gap₃ : Text} (hsquare : IsWord squareWord square)
      (hgap₁ : AllBlank gap₁) (hroot : IsWord rootWord root) (hgap₂ : AllBlank gap₂)
      (hof : IsWord ofWord of) (hgap₃ : AllBlank gap₃) (hargument : argument.IsDecimal) :
      SquareRootPhrase argument
        (square ++ (gap₁ ++ (root ++ (gap₂ ++ (of ++ (gap₃ ++ argument.text))))))

/-- The word "root" and a literal. -/
inductive RootPhrase (argument : Literal) : Text → Prop
  | intro {root gap : Text} (hroot : IsWord rootWord root) (hgap : AllBlank gap)
      (hargument : argument.IsDecimal) : RootPhrase argument (root ++ (gap ++ argument.text))

/-- The opening of a root call and a literal. -/
inductive OpenCall (argument : Literal) : Text → Prop
  | intro {opening gap : Text} (hopening : IsWord callOpening opening) (hgap : AllBlank gap)
      (hargument : argument.IsDecimal) : OpenCall argument (opening ++ (gap ++ argument.text))

/-- A sign that is read in front of the rest of a text if it stands there, perhaps behind
blanks. -/
inductive OptionalSign (c : Char) (rest : Text) : Text → Prop
  | present {gap : Text} (hgap : AllBlank gap) : OptionalSign c rest (gap ++ [c])
  | absent (h : ∀ gap tail, AllBlank gap → rest ≠ gap ++ c :: tail) : OptionalSign c rest []

/-! ## Gaps -/

/-- A word does not start with a blank. -/
theorem IsWord.noBlankAhead {w : Char} {word spelling : Text} (h : IsWord (w :: word) spelling)
    (hw : w.isAlpha = true) (rest : Text) : Text.NoBlankAhead (spelling ++ rest) := by
  intro c tail htext
  cases hblank : isBlank c with
  | false => rfl
  | true =>
      cases spelling with
      | nil => cases h
      | cons d spelling =>
          obtain ⟨rfl, -⟩ := List.cons.inj htext
          obtain ⟨rfl, -⟩ := List.cons.inj h
          simp only [isBlank, Bool.or_eq_true, decide_eq_true_eq] at hblank
          rcases hblank with ((rfl | rfl) | rfl) | rfl <;> exact absurd hw (by decide)

theorem dropWord?_skipBlanks_eq_some_iff {w : Char} (hw : w.isAlpha = true)
    {word t rest : Text} :
    dropWord? (w :: word) (Text.skipBlanks t) = some rest ↔
      ∃ gap spelling, AllBlank gap ∧ IsWord (w :: word) spelling ∧
        t = gap ++ (spelling ++ rest) := by
  rw [dropWord?_eq_some_iff]
  constructor
  · rintro ⟨spelling, hword, ht⟩
    obtain ⟨gap, hgap, ht⟩ := (Text.skipBlanks_eq_iff (hword.noBlankAhead hw rest)).1 ht
    exact ⟨gap, spelling, hgap, hword, ht⟩
  · rintro ⟨gap, spelling, hgap, hword, rfl⟩
    exact ⟨spelling, hword, Text.skipBlanks_gap hgap (hword.noBlankAhead hw rest)⟩

theorem skipBlanks_eq_cons_iff {c : Char} (hc : isBlank c = false) {t rest : Text} :
    Text.skipBlanks t = c :: rest ↔ ∃ gap, AllBlank gap ∧ t = gap ++ c :: rest :=
  Text.skipBlanks_eq_iff (Text.noBlankAhead_cons hc rest)

/-- Every text starts with an optional sign. -/
theorem exists_optionalSign (c : Char) (t : Text) :
    ∃ sign rest, OptionalSign c rest sign ∧ t = sign ++ rest := by
  by_cases h : ∃ gap tail, AllBlank gap ∧ t = gap ++ c :: tail
  · obtain ⟨gap, tail, hgap, rfl⟩ := h
    exact ⟨gap ++ [c], tail, .present hgap, by simp⟩
  · refine ⟨[], t, .absent ?_, rfl⟩
    intro gap tail hgap ht
    exact h ⟨gap, tail, hgap, ht⟩

theorem literal?_eq_some_iff {t : Text} {found : Literal × Text} :
    literal? t = some found ↔ scanSigned t = .ok found := by
  unfold literal?
  cases scanSigned t <;> simp

theorem literal?_skipBlanks_eq_some_iff {t rest : Text} {argument : Literal} :
    literal? (Text.skipBlanks t) = some (argument, rest) ↔
      ∃ gap, AllBlank gap ∧ argument.IsDecimal ∧ argument.EndsBefore rest ∧
        t = gap ++ (argument.text ++ rest) :=
  literal?_eq_some_iff.trans scanSigned_skipBlanks_eq_ok_iff

/-! ## Segments -/

theorem Lacks.append {c : Char} {t u : Text} (ht : Lacks c t) (hu : Lacks c u) :
    Lacks c (t ++ u) := by
  intro d hd
  rcases List.mem_append.1 hd with hd | hd
  · exact ht d hd
  · exact hu d hd

theorem lacks_of_arithmetic {c : Char} {t : Text} (h : ∀ d ∈ t, isArithmeticChar d = true)
    (hc : isArithmeticChar c = false) : Lacks c t := by
  intro d hd hlower
  have harithmetic := h d hd
  rw [toLower_of_not_isAlpha (not_isAlpha_of_isArithmeticChar harithmetic)] at hlower
  rw [hlower, hc] at harithmetic
  cases harithmetic

theorem AllBlank.lacks {c : Char} {t : Text} (h : AllBlank t) (hc : isArithmeticChar c = false) :
    Lacks c t := by
  refine lacks_of_arithmetic (fun d hd => ?_) hc
  simp [isArithmeticChar, h.allWhiteSpace d hd]

theorem Literal.IsDecimal.lacks {c : Char} {l : Literal} (h : l.IsDecimal)
    (hc : isArithmeticChar c = false) : Lacks c l.text := by
  refine lacks_of_arithmetic (fun d hd => ?_) hc
  rcases h.mem_text hd with hdigit | rfl | rfl
  · simp [isArithmeticChar, hdigit]
  · decide
  · decide

theorem IsWord.lacks {c : Char} {word t : Text} (h : IsWord word t) (hc : c ∉ word) :
    Lacks c t := by
  intro d hd hlower
  rw [← h] at hc
  exact hc (List.mem_map.2 ⟨d, hd, hlower⟩)

theorem IsWord.isSegment {word t : Text} (h : IsWord ('s' :: word) t) (hword : 's' ∉ word) :
    IsSegment t := by
  cases t with
  | nil => cases h
  | cons c t =>
      obtain ⟨hc, ht⟩ := List.cons.inj h
      exact .intro hc (IsWord.lacks ht hword)

theorem IsSegment.ne_nil {t : Text} (h : IsSegment t) : t ≠ [] := by
  obtain ⟨-, -⟩ := h
  exact List.cons_ne_nil _ _

theorem IsSegment.append {t u : Text} (ht : IsSegment t) (hu : Lacks 's' u) :
    IsSegment (t ++ u) := by
  obtain ⟨hhead, htail⟩ := ht
  exact .intro hhead (htail.append hu)

theorem SquareRootPhrase.isSegment {argument : Literal} {phrase : Text}
    (h : SquareRootPhrase argument phrase) : IsSegment phrase := by
  obtain ⟨hsquare, hgap₁, hroot, hgap₂, hof, hgap₃, hargument⟩ := h
  refine (hsquare.isSegment (by decide)).append ?_
  refine (hgap₁.lacks (by decide)).append ((hroot.lacks (by decide)).append ?_)
  refine (hgap₂.lacks (by decide)).append ((hof.lacks (by decide)).append ?_)
  exact (hgap₃.lacks (by decide)).append (hargument.lacks (by decide))

theorem OpenCall.isSegment {argument : Literal} {call : Text} (h : OpenCall argument call) :
    IsSegment call := by
  obtain ⟨hopening, hgap, hargument⟩ := h
  exact (hopening.isSegment (by decide)).append
    ((hgap.lacks (by decide)).append (hargument.lacks (by decide)))

theorem OpenCall.isDecimal {argument : Literal} {call : Text} (h : OpenCall argument call) :
    argument.IsDecimal := by
  obtain ⟨-, -, hargument⟩ := h
  exact hargument

theorem isWord_callOpening : IsWord callOpening callOpening := by decide

theorem isSegment_rootCall {argument : Literal} (h : argument.IsDecimal) :
    IsSegment (rootCall argument) := by
  refine ((isWord_callOpening.isSegment (by decide)).append (h.lacks (by decide))).append ?_
  intro c hc
  rw [List.mem_singleton.1 hc]
  decide

/-! ## Rules -/

theorem phraseRule_eq_some_iff {t written rest : Text} :
    phraseRule t = some (written, rest) ↔
      ∃ argument phrase, SquareRootPhrase argument phrase ∧ argument.EndsBefore rest ∧
        t = phrase ++ rest ∧ written = rootCall argument := by
  simp only [phraseRule, Option.bind_eq_bind, Option.bind_eq_some_iff, dropWord?_eq_some_iff,
    rootWord, ofWord, dropWord?_skipBlanks_eq_some_iff (show 'r'.isAlpha = true from rfl),
    dropWord?_skipBlanks_eq_some_iff (show 'o'.isAlpha = true from rfl)]
  constructor
  · rintro ⟨_, ⟨square, hsquare, rfl⟩, _, ⟨gap₁, root, hgap₁, hroot, rfl⟩, _,
      ⟨gap₂, of, hgap₂, hof, rfl⟩, ⟨argument, rest'⟩, hliteral, hwritten⟩
    cases hwritten
    obtain ⟨gap₃, hgap₃, hdecimal, hends, rfl⟩ := literal?_skipBlanks_eq_some_iff.1 hliteral
    exact ⟨argument, _, .intro hsquare hgap₁ hroot hgap₂ hof hgap₃ hdecimal, hends, by simp, rfl⟩
  · rintro ⟨argument, _, ⟨hsquare, hgap₁, hroot, hgap₂, hof, hgap₃, hdecimal⟩, hends, rfl, rfl⟩
    simp only [List.append_assoc]
    exact ⟨_, ⟨_, hsquare, rfl⟩, _, ⟨_, _, hgap₁, hroot, rfl⟩, _, ⟨_, _, hgap₂, hof, rfl⟩,
      (argument, rest), literal?_skipBlanks_eq_some_iff.2 ⟨_, hgap₃, hdecimal, hends, rfl⟩, rfl⟩

theorem leadingRoot?_eq_some_iff {t written : Text} :
    leadingRoot? t = some written ↔
      ∃ argument, RootPhrase argument t ∧ written = rootCall argument := by
  simp only [leadingRoot?, Option.bind_eq_bind, Option.bind_eq_some_iff, dropWord?_eq_some_iff]
  constructor
  · rintro ⟨_, ⟨root, hroot, rfl⟩, ⟨argument, rest⟩, hliteral, hwritten⟩
    obtain ⟨gap, hgap, hdecimal, -, rfl⟩ := literal?_skipBlanks_eq_some_iff.1 hliteral
    dsimp only at hwritten
    split at hwritten
    · next hrest =>
        cases hwritten
        subst hrest
        rw [List.append_nil]
        exact ⟨argument, .intro hroot hgap hdecimal, rfl⟩
    · cases hwritten
  · rintro ⟨argument, ⟨hroot, hgap, hdecimal⟩, rfl⟩
    refine ⟨_, ⟨_, hroot, rfl⟩, (argument, []), ?_, rfl⟩
    exact literal?_skipBlanks_eq_some_iff.2
      ⟨_, hgap, hdecimal, argument.endsBefore_nil, by rw [List.append_nil]⟩

theorem callRule_eq_some_iff {t written rest : Text} :
    callRule t = some (written, rest) ↔
      ∃ argument call closing, OpenCall argument call ∧ OptionalSign ')' rest closing ∧
        argument.EndsBefore (closing ++ rest) ∧ t = call ++ (closing ++ rest) ∧
        written = rootCall argument := by
  simp only [callRule, Option.bind_eq_bind, Option.bind_eq_some_iff, dropWord?_eq_some_iff]
  constructor
  · rintro ⟨_, ⟨opening, hopening, rfl⟩, ⟨argument, after⟩, hliteral, hclose⟩
    obtain ⟨gap, hgap, hdecimal, hends, rfl⟩ := literal?_skipBlanks_eq_some_iff.1 hliteral
    dsimp only at hclose
    split at hclose
    · next tail hskip =>
        cases hclose
        obtain ⟨gap', hgap', rfl⟩ := (skipBlanks_eq_cons_iff (by decide)).1 hskip
        exact ⟨argument, _, gap' ++ [')'], .intro hopening hgap hdecimal, .present hgap',
          by simpa using hends, by simp, rfl⟩
    · next hskip =>
        cases hclose
        refine ⟨argument, _, [], .intro hopening hgap hdecimal, .absent ?_, hends, by simp, rfl⟩
        intro gap' tail hgap' hafter
        exact hskip tail ((skipBlanks_eq_cons_iff (by decide)).2 ⟨gap', hgap', hafter⟩)
  · rintro ⟨argument, _, closing, ⟨hopening, hgap, hdecimal⟩, hclosing, hends, rfl, rfl⟩
    simp only [List.append_assoc]
    refine ⟨_, ⟨_, hopening, rfl⟩, (argument, closing ++ rest), ?_, ?_⟩
    · exact literal?_skipBlanks_eq_some_iff.2 ⟨_, hgap, hdecimal, hends, rfl⟩
    · cases hclosing with
      | @present gap' hgap' =>
          dsimp only
          rw [(skipBlanks_eq_cons_iff (by decide)).2 ⟨gap', hgap', List.append_assoc ..⟩]
          rfl
      | absent habsent =>
          dsimp only
          split
          · next tail hskip =>
              obtain ⟨gap', hgap', hrest⟩ := (skipBlanks_eq_cons_iff (by decide)).1 hskip
              exact absurd hrest (habsent gap' tail hgap')
          · rfl

theorem radicalRule_eq_some_iff {t written rest : Text} :
    radicalRule t = some (written, rest) ↔
      written = callOpening ∧ ∃ opening, OptionalSign '(' rest opening ∧
        t = '√' :: (opening ++ rest) := by
  constructor
  · intro h
    unfold radicalRule at h
    split at h
    · next after =>
        split at h
        · next tail hskip =>
            cases h
            obtain ⟨gap, hgap, rfl⟩ := (skipBlanks_eq_cons_iff (by decide)).1 hskip
            exact ⟨rfl, gap ++ ['('], .present hgap, by simp⟩
        · next hskip =>
            cases h
            refine ⟨rfl, [], .absent ?_, rfl⟩
            intro gap tail hgap hafter
            exact hskip tail ((skipBlanks_eq_cons_iff (by decide)).2 ⟨gap, hgap, hafter⟩)
    · cases h
  · rintro ⟨rfl, opening, hopening, rfl⟩
    rw [radicalRule]
    cases hopening with
    | @present gap hgap =>
        rw [(skipBlanks_eq_cons_iff (by decide)).2 ⟨gap, hgap, List.append_assoc ..⟩]
        rfl
    | absent habsent =>
        split
        · next tail hskip =>
            obtain ⟨gap, hgap, hrest⟩ := (skipBlanks_eq_cons_iff (by decide)).1 hskip
            exact absurd hrest (habsent gap tail hgap)
        · rfl

/-- The rule for a radical sign applies at every radical sign. -/
theorem radicalRule_ne_none (t : Text) : radicalRule ('√' :: t) ≠ none := by
  obtain ⟨opening, rest, hopening, rfl⟩ := exists_optionalSign '(' t
  rw [radicalRule_eq_some_iff.2 ⟨rfl, opening, hopening, rfl⟩]
  exact Option.some_ne_none _

theorem radicalRule_consumes : radicalRule.Consumes := by
  intro t written rest h
  obtain ⟨-, opening, -, rfl⟩ := radicalRule_eq_some_iff.1 h
  exact ⟨'√' :: opening, List.cons_ne_nil _ _, rfl⟩

theorem phraseRule_consumes : phraseRule.Consumes := by
  intro t written rest h
  obtain ⟨argument, phrase, hphrase, -, rfl, -⟩ := phraseRule_eq_some_iff.1 h
  exact ⟨phrase, hphrase.isSegment.ne_nil, rfl⟩

theorem callRule_consumes : callRule.Consumes := by
  intro t written rest h
  obtain ⟨argument, call, closing, hcall, -, -, rfl, -⟩ := callRule_eq_some_iff.1 h
  refine ⟨call ++ closing, ?_, by rw [List.append_assoc]⟩
  exact fun hnil => hcall.isSegment.ne_nil (List.append_eq_nil_iff.1 hnil).1

end Stepwise
