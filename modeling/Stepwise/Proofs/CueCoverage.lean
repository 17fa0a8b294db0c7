import Stepwise.Proofs.Routing
import Stepwise.Proofs.Synonyms

set_option autoImplicit false

/-! # The texts that have no cue and could be explained

The cues and the patterns read a query in two ways. The cue of a call asks for the parenthesis at
its end, and the cue of the word "root" for a blank behind it, while the canonical form closes an
open call and lets the number touch the word. So a query that could be explained is not taken for
mathematics in exactly these two shapes (`BareRoot`), and in every other shape it has a cue.
-/

namespace Stepwise

/-- A root phrasing that is a little short of its cue. -/
inductive BareRoot (argument : Literal) : Text → Prop
  /-- The word "root" with the literal directly behind it. -/
  | joined {word : Text} (hword : IsWord rootWord word) (hargument : argument.IsDecimal) :
      BareRoot argument (word ++ argument.text)
  /-- A call that is opened and not closed. -/
  | unclosed {t : Text} (h : OpenCall argument t) : BareRoot argument t

theorem BareRoot.isDecimal {argument : Literal} {t : Text} (h : BareRoot argument t) :
    argument.IsDecimal := by
  cases h with
  | joined hword hargument => exact hargument
  | unclosed h => exact h.isDecimal

/-! ## Bare roots have no cue -/

theorem IsWord.length_eq {word t : Text} (h : IsWord word t) : t.length = word.length := by
  rw [← h, List.length_map]

/-- The opening of a call is the name and a parenthesis. -/
theorem IsWord.of_callOpening {opening : Text} (h : IsWord callOpening opening) :
    ∃ word, IsWord sqrtWord word ∧ opening = word ++ ['('] := by
  have hsplit : opening.map Char.toLower = sqrtWord ++ ['('] := h
  obtain ⟨word, sign, rfl, hword, hsign⟩ := List.map_eq_append_iff.1 hsplit
  obtain ⟨c, rfl, hc⟩ := List.map_eq_singleton_iff.1 hsign
  rw [(toLower_eq_iff (by decide)).1 hc]
  exact ⟨word, hword, rfl⟩

theorem OpenCall.lacks_radical {argument : Literal} {t : Text} (h : OpenCall argument t) :
    Lacks '√' t := by
  obtain ⟨hopening, hgap, hargument⟩ := h
  exact (hopening.lacks (by decide)).append
    ((hgap.lacks (by decide)).append (hargument.lacks (by decide)))

theorem not_hasRootCue_joined {argument : Literal} (hargument : argument.IsDecimal) {word : Text}
    (hword : IsWord rootWord word) : ¬ HasRootCue (word ++ argument.text) := by
  intro hcue
  have hlacks {c : Char} (hc : c ∉ rootWord) (hc' : isArithmeticChar c = false) :
      Lacks c (word ++ argument.text) := (hword.lacks hc).append (hargument.lacks hc')
  have hradical := (hlacks (c := '√') (by decide) (by decide)).not_mem (by decide)
  have hess := hlacks (c := 's') (by decide) (by decide)
  generalize ht : word ++ argument.text = t at hcue hradical hess
  cases hcue with
  | call hcall =>
      have heq := hword.append_eq hcall ht
      simp [rootWord, sqrtWord] at heq
  | radical h => exact hradical h
  | squareRoot hsquare =>
      obtain ⟨hhead, -⟩ := hsquare.isSegment (by decide)
      exact absurd hhead (hess _ (by simp))
  | @rootWord root c after hroot hc =>
      -- the literal stands where the blank should be
      obtain ⟨-, htext⟩ := List.append_inj ht (hword.length_eq.trans hroot.length_eq.symm)
      have hahead := hargument.noBlankAhead [] c after (by rw [List.append_nil, htext])
      rw [hc] at hahead
      cases hahead

theorem OpenCall.not_hasRootCue {argument : Literal} {t : Text} (h : OpenCall argument t) :
    ¬ HasRootCue t := by
  intro hcue
  have hsegment := h.isSegment
  have hradical := h.lacks_radical.not_mem (by decide)
  obtain @⟨opening, gap, hopening, -, hargument⟩ := h
  obtain ⟨init, d, htext, hd⟩ := hargument.exists_last
  generalize ht : opening ++ (gap ++ argument.text) = t at hcue hradical hsegment
  cases hcue with
  | @call word gap' body hword =>
      -- the last character is a digit, and should be a parenthesis
      have hsplit : opening ++ (gap ++ init) ++ [d] = word ++ (gap' ++ '(' :: body) ++ [')'] := by
        simpa [htext] using ht
      obtain ⟨-, hlast⟩ := List.append_inj' hsplit rfl
      cases hlast
      exact absurd hd (by decide)
  | radical h => exact hradical h
  | @squareRoot before square gap' root after hsquare hgap' hroot =>
      obtain rfl := hsegment.eq_nil_of_append (hsquare.isSegment (by decide))
        (List.append_assoc before square _).symm
      have heq := hopening.append_eq hsquare ht
      simp [callOpening, squareWord] at heq
  | rootWord hroot =>
      have heq := hopening.append_eq hroot ht
      simp [callOpening, rootWord] at heq

theorem BareRoot.not_hasRootCue {argument : Literal} {t : Text} (h : BareRoot argument t) :
    ¬ HasRootCue t := by
  cases h with
  | joined hword hargument => exact not_hasRootCue_joined hargument hword
  | unclosed h => exact h.not_hasRootCue

theorem BareRoot.exists_isAlpha {argument : Literal} {t : Text} (h : BareRoot argument t) :
    ∃ c ∈ t, c.isAlpha = true := by
  cases h with
  | joined hword => exact exists_isAlpha_of_dropWord? (by decide) (hword.dropWord? argument.text)
  | unclosed h =>
      obtain ⟨hopening, -, -⟩ := h
      exact exists_isAlpha_of_dropWord? (by decide) (hopening.dropWord? _)

theorem BareRoot.mathCue?_eq_none {argument : Literal} {query : Text}
    (h : BareRoot argument (Text.trim query)) : mathCue? query = none := by
  obtain ⟨c, hmem, hc⟩ := h.exists_isAlpha
  refine mathCue?_eq_none_iff.2 ⟨h.not_hasRootCue, ?_, ?_⟩
  · refine eq_false_of_ne_true fun harithmetic => ?_
    exact ((isArithmeticText_iff _).1 harithmetic).2 (hasForeign_of_isAlpha ⟨c, hmem, hc⟩)
  · have hletter : (Text.trim query).any isAlphabetic = true :=
      List.any_eq_true.2 ⟨c, hmem, isAlphabetic_of_isAlpha hc⟩
    rw [hletter, Bool.not_true, Bool.and_false]

/-- A bare root is brought into canonical form all the same. -/
theorem BareRoot.canonical_eq {argument : Literal} {query : Text}
    (h : BareRoot argument (Text.trim query)) : canonical query = rootCall argument := by
  generalize ht : Text.trim query = t at h
  cases h with
  | @joined word hword hargument =>
      have hlacks : Lacks '√' (word ++ argument.text) :=
        (hword.lacks (by decide)).append (hargument.lacks (by decide))
      exact canonical_of_rootPhrase (.intro hword allBlank_nil hargument)
        (radicalPass_of_lacks ht hlacks)
  | unclosed h =>
      refine canonical_of_openCall h (optionalSign_nil ')') ?_
      rw [radicalPass_of_lacks ht h.lacks_radical, List.append_nil]

/-- A bare root is explained by its literal, or its literal is no radicand. -/
theorem explainMath_of_bareRoot (e : Explainer) {query : String} {argument : Literal}
    (h : BareRoot argument (Text.trim query.toList)) :
    e.explainMath query = match readRadicand argument.text e.limits.maxRadicand with
      | .ok n => .ok ⟨explainRoot n, .root⟩
      | .error cause => .error (.invalidRadicand cause) := by
  apply explainMath_of_callText
  rw [h.canonical_eq]
  exact callText_rootCall h.isDecimal

/-! ## Texts that are explained -/

/-- What is explained is a root call, or has no foreign character. -/
theorem exists_rootCall_of_explainText {limits : Limits} {t : Text} {outcome : Outcome}
    (h : explainText limits t Pattern.all = .ok outcome) :
    (∃ argument, parseRootCall t = .ok argument) ∨ ¬ HasForeign t := by
  by_cases hcall : ∃ argument, parseRootCall t = .ok argument
  · exact .inl hcall
  · right
    intro hforeign
    obtain ⟨c, position, -, hrefused⟩ :=
      explainText_of_not_rootCall limits hforeign (not_exists.1 hcall)
    rw [hrefused] at h
    cases h

theorem route_ne_general_of_explainMath {e : Explainer} {query : String} {outcome : Outcome}
    (h : e.explainMath query = .ok outcome) : outcome.route ≠ .general := by
  have hroute : outcome.route = routeOf e.limits (canonical query.toList) := by
    rw [routeOf, ← Explainer.explainMath, h]
  rw [hroute, routeOf_eq]
  intro hgeneral
  repeat' split at hgeneral
  all_goals cases hgeneral

/-- An explained text without foreign characters has the cue of arithmetic. -/
theorem isArithmeticText_of_explainMath {e : Explainer} {query : String} {outcome : Outcome}
    (h : e.explainMath query = .ok outcome) (hplain : ¬ HasForeign (canonical query.toList)) :
    isArithmeticText (Text.trim query.toList) = true := by
  refine (isArithmeticText_iff _).2 ⟨fun hnil => ?_, fun hforeign => ?_⟩
  · have hempty : canonical query.toList = [] := by
      rw [canonical_eq_trim (by simp [hnil]), hnil]
    rw [Explainer.explainMath, hempty] at h
    cases h
  · exact hplain (hasForeign_canonical hforeign)

/-! ## Root calls without a cue -/

theorem CallText.isSegment {argument : Literal} {t : Text} (h : CallText argument t) :
    IsSegment t := by
  obtain @⟨word, gap, inner, inner', hword, hgap, hinner, hargument, hinner'⟩ := h
  have hclosing : OptionalSign ')' [] (inner' ++ [')']) := .present hinner'
  exact (hword.isSegment (by decide)).append
    (lacks_inside (by decide) hargument hgap hinner hclosing)

/-- A call has one closing parenthesis, at its end. -/
theorem CallText.exists_init {argument : Literal} {t : Text} (h : CallText argument t) :
    ∃ init, t = init ++ [')'] ∧ ')' ∉ init := by
  obtain @⟨word, gap, inner, inner', hword, hgap, hinner, hargument, hinner'⟩ := h
  refine ⟨word ++ (gap ++ '(' :: (inner ++ (argument.text ++ inner'))), by simp, ?_⟩
  have hblank {blanks : Text} (h : AllBlank blanks) : ')' ∉ blanks :=
    fun hmem => absurd (h _ hmem) (by decide)
  have hname : ')' ∉ word := (hword.lacks (by decide)).not_mem (by decide)
  have hliteral : ')' ∉ argument.text := fun hmem =>
    absurd (hargument.mem_text hmem) (by decide)
  simp [hname, hblank hgap, hblank hinner, hliteral, hblank hinner']

/-- Nothing stands behind a call in a call. -/
theorem CallText.eq_nil_of_append {argument argument' : Literal} {out : Text}
    (h : CallText argument (rootCall argument' ++ out)) : out = [] := by
  obtain ⟨init, hsplit, hinit⟩ := h.exists_init
  rcases List.eq_nil_or_concat' out with rfl | ⟨out, d, rfl⟩
  · rfl
  · rw [← List.append_assoc] at hsplit
    obtain ⟨rfl, -⟩ := List.append_inj' hsplit rfl
    exact absurd (by simp [rootCall]) hinit

/-- A trimmed text that is read as a root call is one. -/
theorem callText_of_parseRootCall {t : Text} (ht : Text.IsTrimmed t) {argument : Literal}
    (h : parseRootCall t = .ok argument) : CallText argument t := by
  obtain ⟨before, call, after, hbefore, hcall, hafter, rfl⟩ := parseRootCall_eq_ok_iff.1 h
  have hargument : argument.IsDecimal := by
    obtain ⟨-, -, -, hargument, -⟩ := hcall
    exact hargument
  have htrim := Text.trim_append hbefore.allWhiteSpace hafter.allWhiteSpace
    ((Phrasing.call hcall).isTrimmed hargument)
  rw [List.append_assoc, Text.trim_eq_self ht] at htrim
  rwa [htrim]

/-- The last pass makes a call of a bare root, or of a text that has a cue. -/
theorem bareRoot_of_replaceAll_callRule {argument : Literal} {t : Text}
    (h : CallText argument (replaceAll callRule t)) (hcue : ¬ HasRootCue t) :
    ∃ argument', BareRoot argument' t := by
  have hsegment := h.isSegment
  have hnil {rest : Text} (hrest : Rewrites callRule rest []) : rest = [] :=
    hrest.eq_nil_of_nil fun u written rest hu =>
      (callRule_writesCalls.isSegment u written rest hu).ne_nil
  have hpass := rewrites_replaceAll callRule_consumes t
  generalize replaceAll callRule t = result at h hsegment hpass
  cases hpass with
  | done => exact absurd rfl hsegment.ne_nil
  | @replace _ written rest out hrule hrest =>
      -- the call is all that is written, so all of the text was read
      obtain ⟨argument', call, closing, hcall, hclosing, -, rfl, rfl⟩ :=
        callRule_eq_some_iff.1 hrule
      obtain rfl := h.eq_nil_of_append
      obtain rfl := hnil hrest
      rw [List.append_nil] at hcue ⊢
      cases hclosing with
      | absent =>
          rw [List.append_nil]
          exact ⟨argument', .unclosed hcall⟩
      | @present gap hgap =>
          obtain @⟨opening, inner, hopening, -, -⟩ := hcall
          obtain ⟨word, hword, rfl⟩ := hopening.of_callOpening
          have h : HasRootCue
              (word ++ ([] ++ '(' :: ((inner ++ (argument'.text ++ gap)) ++ [')']))) :=
            .call hword allBlank_nil
          exact absurd (by simpa using h) hcue
  | @copy c rest out hrule hrest =>
      obtain ⟨hhead, htail⟩ := hsegment
      rw [← List.append_nil out] at hrest
      obtain ⟨rest', rfl, hrest'⟩ := hrest.of_append callRule_writesCalls.isSegment htail
      obtain rfl := hnil hrest'
      rw [List.append_nil] at hcue
      exact absurd (Phrasing.call h).hasRootCue hcue

/-- Without a cue only a bare root is brought into the form of a root call. -/
theorem bareRoot_of_callText {argument : Literal} {query : Text}
    (h : CallText argument (canonical query)) (hcue : ¬ HasRootCue (Text.trim query)) :
    ∃ argument', BareRoot argument' (Text.trim query) := by
  have hradical : replaceAll radicalRule (Text.trim query) = Text.trim query :=
    replaceAll_radicalRule fun hmem => hcue (.radical hmem)
  have hphrase : replaceAll phraseRule (Text.trim query) = Text.trim query := by
    refine replaceAll_eq_of_exact fun before u written rest _ hsplit hrule => ?_
    obtain ⟨argument', phrase, hphrase, -, rfl, -⟩ := phraseRule_eq_some_iff.1 hrule
    obtain ⟨hsquare, hgap₁, hroot, -, -, -, -⟩ := hphrase
    simp only [List.append_assoc] at hsplit
    rw [hsplit] at hcue
    exact absurd (.squareRoot hsquare hgap₁ hroot) hcue
  rw [canonical] at h
  simp only [hradical, hphrase] at h
  cases hleading : leadingRoot? (Text.trim query) with
  | none =>
      rw [hleading, Option.getD_none] at h
      exact bareRoot_of_replaceAll_callRule h hcue
  | some written =>
      obtain ⟨argument', hroot, -⟩ := leadingRoot?_eq_some_iff.1 hleading
      generalize Text.trim query = t at hroot hcue
      obtain @⟨word, gap, hword, hgap, hargument⟩ := hroot
      cases gap with
      | nil => exact ⟨argument', .joined hword hargument⟩
      | cons c gap => exact absurd (.rootWord hword (hgap c List.mem_cons_self)) hcue

/-! ## Coverage -/

/-- A query that can be explained has a cue, and is answered by that explanation, unless it is a
bare root; a bare root has no cue and is answered as a general topic. -/
theorem run_of_explainMath {e : Explainer} {query : String} {outcome : Outcome}
    (h : e.explainMath query = .ok outcome) :
    outcome.route ≠ .general ∧
    ((∀ argument, ¬ BareRoot argument (Text.trim query.toList)) →
      mathCue? query.toList ≠ none ∧
        (query.length ≤ e.limits.maxQueryChars → e.run query = outcome)) ∧
    (∀ argument, BareRoot argument (Text.trim query.toList) →
      mathCue? query.toList = none ∧
        (query.length ≤ e.limits.maxQueryChars →
          e.run query = ⟨e.explainTopic query, .general⟩)) := by
  refine ⟨route_ne_general_of_explainMath h, fun hbare => ?_, fun argument hbare => ?_⟩
  · have hcue : mathCue? query.toList ≠ none := by
      intro hnone
      obtain ⟨hroot, harithmetic, -⟩ := mathCue?_eq_none_iff.1 hnone
      rcases exists_rootCall_of_explainText h with ⟨argument, hcall⟩ | hplain
      · have hcall := callText_of_parseRootCall (isTrimmed_canonical query.toList) hcall
        obtain ⟨argument', hbare'⟩ := bareRoot_of_callText hcall hroot
        exact hbare argument' hbare'
      · rw [isArithmeticText_of_explainMath h hplain] at harithmetic
        cases harithmetic
    refine ⟨hcue, fun hlength => ?_⟩
    rw [Explainer.run_eq, if_neg (Nat.not_lt.2 hlength),
      if_pos (Option.isSome_iff_ne_none.2 hcue), h]
  · have hcue := hbare.mathCue?_eq_none
    refine ⟨hcue, fun hlength => ?_⟩
    rw [Explainer.run_eq, if_neg (Nat.not_lt.2 hlength), hcue]
    rfl

/-- The word in front of a blank has its cue. -/
theorem run_of_explainMath_root :
    ({} : Explainer).explainMath "root 144" = .ok ⟨explainRoot 144, .root⟩ ∧
      mathCue? "root 144".toList ≠ none ∧
      ({} : Explainer).run "root 144" = ⟨explainRoot 144, .root⟩ := by
  have htrim : Text.trim "root 144".toList =
      ['r', 'o', 'o', 't'] ++ ([' '] ++ ['1', '4', '4']) := by
    decide
  have hphrase : Phrasing ⟨false, ['1', '4', '4'], none⟩ (Text.trim "root 144".toList) := by
    rw [htrim]
    exact .root (by decide) (by decide) (by decide)
  have hexplain : ({} : Explainer).explainMath "root 144" = .ok ⟨explainRoot 144, .root⟩ :=
    explainMath_of_callText {} (hphrase.callText_canonical (.whole (by decide) (by decide)) rfl)
  obtain ⟨-, hcovered, -⟩ := run_of_explainMath hexplain
  obtain ⟨hcue, hrun⟩ := hcovered fun argument hbare => hbare.not_hasRootCue hphrase.hasRootCue
  exact ⟨hexplain, hcue, hrun (by decide)⟩

/-- The word in front of a number, and a call that is not closed, are explained as roots but have
no cue. -/
theorem bareRoot_general :
    (({} : Explainer).explainMath "root144" = .ok ⟨explainRoot 144, .root⟩ ∧
      mathCue? "root144".toList = none ∧ (({} : Explainer).run "root144").route = .general) ∧
    (({} : Explainer).explainMath "sqrt(49" = .ok ⟨explainRoot 49, .root⟩ ∧
      mathCue? "sqrt(49".toList = none ∧ (({} : Explainer).run "sqrt(49").route = .general) := by
  have hgeneral {query : String} (hlength : query.length ≤ 4096)
      (hcue : mathCue? query.toList = none) : (({} : Explainer).run query).route = .general := by
    rw [Explainer.run_eq, if_neg (Nat.not_lt.2 hlength), hcue]
    rfl
  have hjoined : BareRoot ⟨false, ['1', '4', '4'], none⟩ (Text.trim "root144".toList) := by
    rw [show Text.trim "root144".toList = ['r', 'o', 'o', 't'] ++ ['1', '4', '4'] by decide]
    exact .joined (by decide) (.whole (by decide) (by decide))
  have hunclosed : BareRoot ⟨false, ['4', '9'], none⟩ (Text.trim "sqrt(49".toList) := by
    rw [show Text.trim "sqrt(49".toList = callOpening ++ ([] ++ ['4', '9']) by decide]
    exact .unclosed (.intro (by decide) (by decide) (.whole (by decide) (by decide)))
  exact ⟨⟨explainMath_of_bareRoot {} hjoined, hjoined.mathCue?_eq_none,
      hgeneral (by decide) hjoined.mathCue?_eq_none⟩,
    ⟨explainMath_of_bareRoot {} hunclosed, hunclosed.mathCue?_eq_none,
      hgeneral (by decide) hunclosed.mathCue?_eq_none⟩⟩

end Stepwise
