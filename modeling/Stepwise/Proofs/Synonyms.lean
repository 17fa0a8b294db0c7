import Stepwise.Explainer
import Stepwise.Proofs.CanonicalForm
import Stepwise.Proofs.Cues

set_option autoImplicit false

/-! # All phrasings of a root mean the same

A root can be asked for with a radical sign, in words, or as a call (`Phrasing`). Every phrasing
has a cue of a root. The passes turn it into the call of its literal, except that a call with a
gap in front of its parenthesis is left as it is, and the recognizer of root calls reads both
alike. So the outcome depends on the literal alone (`rootOutcome`).
-/

namespace Stepwise

/-- The accepted phrasings of the root of a literal. -/
inductive Phrasing (argument : Literal) : Text → Prop
  /-- A radical sign and the literal. -/
  | radical {gap : Text} (hgap : AllBlank gap) : Phrasing argument ('√' :: (gap ++ argument.text))
  /-- A radical sign and the literal in parentheses, of which the closing one may be missing. -/
  | radicalCall {gap inner closing : Text} (hgap : AllBlank gap) (hinner : AllBlank inner)
      (hclosing : OptionalSign ')' [] closing) :
      Phrasing argument ('√' :: (gap ++ '(' :: (inner ++ (argument.text ++ closing))))
  /-- The words "square root of" and the literal. -/
  | squareRootOf {t : Text} (h : SquareRootPhrase argument t) : Phrasing argument t
  /-- The word "root", a gap that is not empty, and the literal. -/
  | root {word gap : Text} (hword : IsWord rootWord word) (hgap : AllBlank gap) (hne : gap ≠ []) :
      Phrasing argument (word ++ (gap ++ argument.text))
  /-- A root call. -/
  | call {t : Text} (h : CallText argument t) : Phrasing argument t

/-! ## Trimmed phrasings -/

theorem not_isWhiteSpace_of_isAlpha {c : Char} (h : c.isAlpha = true) :
    isWhiteSpace c = false := by
  cases hwhite : isWhiteSpace c with
  | false => rfl
  | true =>
      rw [not_isAlpha_of_isArithmeticChar (by simp [isArithmeticChar, hwhite])] at h
      cases h

/-- What starts and ends with trimmed texts is trimmed. -/
theorem Text.IsTrimmed.append {start ending : Text} (hstart : Text.IsTrimmed start)
    (hending : Text.IsTrimmed ending) (hne : start ≠ []) (hne' : ending ≠ []) (middle : Text) :
    Text.IsTrimmed (start ++ (middle ++ ending)) := by
  obtain ⟨c, start, rfl⟩ := List.exists_cons_of_ne_nil hne
  obtain ⟨init, d, rfl⟩ := (List.eq_nil_or_concat' ending).resolve_left hne'
  constructor
  · exact hstart.head
  · intro e he
    rw [← List.append_assoc, ← List.append_assoc, List.getLast?_concat] at he
    exact hending.last e (by rw [List.getLast?_concat]; exact he)

theorem IsWord.isTrimmed {word t : Text} (h : IsWord word t)
    (hword : word.all Char.isAlpha = true) : Text.IsTrimmed t := by
  refine isTrimmed_of_forall fun c hc => not_isWhiteSpace_of_isAlpha ?_
  rw [← h] at hword
  rw [← isAlpha_toLower]
  exact List.all_eq_true.1 hword _ (List.mem_map_of_mem hc)

theorem IsWord.ne_nil {w : Char} {word t : Text} (h : IsWord (w :: word) t) : t ≠ [] := by
  rintro rfl
  cases h

theorem Literal.IsDecimal.isTrimmed {l : Literal} (h : l.IsDecimal) : Text.IsTrimmed l.text := by
  refine isTrimmed_of_forall fun c hc => ?_
  rcases h.mem_text hc with hdigit | rfl | rfl
  · exact not_isWhiteSpace_of_isDigit hdigit
  · decide
  · decide

theorem Literal.IsDecimal.text_ne_nil {l : Literal} (h : l.IsDecimal) : l.text ≠ [] := by
  obtain ⟨init, d, htext, -⟩ := h.exists_last
  rw [htext]
  exact List.concat_ne_nil d init

theorem isTrimmed_singleton {c : Char} (h : isWhiteSpace c = false) : Text.IsTrimmed [c] := by
  refine isTrimmed_of_forall fun d hd => ?_
  rwa [List.mem_singleton.1 hd]

/-- A phrasing has no white space at its ends, so trimming takes away what is around it. -/
theorem Phrasing.isTrimmed {argument : Literal} (hargument : argument.IsDecimal)
    {t : Text} (h : Phrasing argument t) : Text.IsTrimmed t := by
  have hradical : Text.IsTrimmed ['√'] := isTrimmed_singleton (by decide)
  have hclose : Text.IsTrimmed [')'] := isTrimmed_singleton (by decide)
  cases h with
  | @radical gap hgap =>
      exact hradical.append hargument.isTrimmed (List.cons_ne_nil _ _) hargument.text_ne_nil gap
  | @radicalCall gap inner closing hgap hinner hclosing =>
      cases hclosing with
      | @present gap' hgap' =>
          have h := hradical.append hclose (List.cons_ne_nil _ _) (List.cons_ne_nil _ _)
            (gap ++ '(' :: (inner ++ (argument.text ++ gap')))
          simpa using h
      | absent =>
          have h := hradical.append hargument.isTrimmed (List.cons_ne_nil _ _)
            hargument.text_ne_nil (gap ++ '(' :: inner)
          simpa using h
  | squareRootOf h =>
      obtain @⟨square, root, of, gap₁, gap₂, gap₃, hsquare, -, -, -, -, -, -⟩ := h
      have h := (hsquare.isTrimmed (by decide)).append hargument.isTrimmed hsquare.ne_nil
        hargument.text_ne_nil (gap₁ ++ (root ++ (gap₂ ++ (of ++ gap₃))))
      simpa using h
  | @root word gap hword hgap hne =>
      exact (hword.isTrimmed (by decide)).append hargument.isTrimmed hword.ne_nil
        hargument.text_ne_nil gap
  | call h =>
      obtain @⟨word, gap, inner, inner', hword, -, -, -, -⟩ := h
      have h := (hword.isTrimmed (by decide)).append hclose hword.ne_nil (List.cons_ne_nil _ _)
        (gap ++ '(' :: (inner ++ (argument.text ++ inner')))
      simpa using h

theorem Phrasing.hasRootCue {argument : Literal} {t : Text} (h : Phrasing argument t) :
    HasRootCue t := by
  cases h with
  | radical => exact .radical List.mem_cons_self
  | radicalCall => exact .radical List.mem_cons_self
  | squareRootOf h =>
      obtain @⟨square, root, of, gap₁, gap₂, gap₃, hsquare, hgap₁, hroot, -, -, -, -⟩ := h
      have h : HasRootCue
          ([] ++ (square ++ (gap₁ ++ (root ++ (gap₂ ++ (of ++ (gap₃ ++ argument.text))))))) :=
        .squareRoot hsquare hgap₁ hroot
      exact h
  | @root word gap hword hgap hne =>
      obtain ⟨c, gap, rfl⟩ := List.exists_cons_of_ne_nil hne
      exact .rootWord hword (hgap c List.mem_cons_self)
  | call h =>
      obtain @⟨word, gap, inner, inner', hword, hgap, -, -, -⟩ := h
      have h : HasRootCue
          (word ++ (gap ++ '(' :: ((inner ++ (argument.text ++ inner')) ++ [')']))) :=
        .call hword hgap
      simpa using h

/-! ## Passes over a single phrasing -/

/-- What the rule reads starts with a segment. -/
def PhrasingRule.ReadsSegments (rule : PhrasingRule) : Prop :=
  ∀ t written rest, rule t = some (written, rest) → ∃ read rest', IsSegment read ∧ t = read ++ rest'

theorem phraseRule_readsSegments : phraseRule.ReadsSegments := by
  intro t written rest h
  obtain ⟨argument, phrase, hphrase, -, ht, -⟩ := phraseRule_eq_some_iff.1 h
  exact ⟨phrase, rest, hphrase.isSegment, ht⟩

theorem callRule_readsSegments : callRule.ReadsSegments := by
  intro t written rest h
  obtain ⟨argument, call, closing, hcall, -, -, ht, -⟩ := callRule_eq_some_iff.1 h
  exact ⟨call, closing ++ rest, hcall.isSegment, ht⟩

section

variable {rule : PhrasingRule} {t : Text}

/-- A rule that reads segments does not apply behind the start of a segment. -/
theorem replaceAll_segment (hreads : rule.ReadsSegments) (ht : IsSegment t)
    (hnone : rule t = none) : replaceAll rule t = t := by
  refine replaceAll_eq_of_exact fun before u written rest _ hsplit hrule => ?_
  obtain ⟨read, rest', hread, rfl⟩ := hreads u written rest hrule
  obtain rfl := ht.eq_nil_of_append hread (by rw [hsplit, List.append_assoc])
  rw [List.nil_append] at hsplit
  rw [← hsplit, hnone] at hrule
  cases hrule

theorem replaceAll_of_lacks (hreads : rule.ReadsSegments) (ht : Lacks 's' t) :
    replaceAll rule t = t := by
  refine replaceAll_eq_of_exact fun before u written rest _ hsplit hrule => ?_
  obtain ⟨read, rest', ⟨hhead, -⟩, rfl⟩ := hreads u written rest hrule
  exact absurd hhead (ht _ (by simp [hsplit]))

/-- A rule that reads the whole text leaves what it writes. -/
theorem replaceAll_whole {written : Text} (hconsumes : rule.Consumes)
    (h : rule t = some (written, [])) : replaceAll rule t = written := by
  rw [replaceAll_of_some hconsumes h, replaceAll, List.append_nil]

end

theorem leadingRoot?_segment {t : Text} (h : IsSegment t) : leadingRoot? t = none := by
  cases hleading : leadingRoot? t with
  | none => rfl
  | some written =>
      obtain ⟨argument, hroot, -⟩ := leadingRoot?_eq_some_iff.1 hleading
      obtain ⟨hhead, -⟩ := h
      exact absurd hhead (hroot.lacks _ List.mem_cons_self)

/-- No phrase starts with a word that starts with the letters of a call. -/
theorem phraseRule_call {word spelling : Text} (h : IsWord ('s' :: 'q' :: 'r' :: word) spelling)
    (rest : Text) : phraseRule (spelling ++ rest) = none := by
  cases hrule : phraseRule (spelling ++ rest) with
  | none => rfl
  | some found =>
      obtain ⟨argument, phrase, ⟨hsquare, -⟩, -, hsplit, -⟩ := phraseRule_eq_some_iff.1 hrule
      rw [List.append_assoc] at hsplit
      have heq := h.append_eq hsquare hsplit
      simp [squareWord] at heq

/-- A call with a gap in front of its parenthesis is not read. -/
theorem callRule_gap {word gap : Text} (hword : IsWord sqrtWord word) (hgap : AllBlank gap)
    (hne : gap ≠ []) (rest : Text) : callRule (word ++ (gap ++ rest)) = none := by
  obtain ⟨c, gap, rfl⟩ := List.exists_cons_of_ne_nil hne
  cases hrule : callRule (word ++ (c :: gap ++ rest)) with
  | none => rfl
  | some found =>
      obtain ⟨argument, call, closing, ⟨hopening, -⟩, -, -, hsplit, -⟩ :=
        callRule_eq_some_iff.1 hrule
      rw [List.append_assoc] at hsplit
      have heq := hword.append_eq hopening hsplit
      simp only [sqrtWord, callOpening, List.cons_append, List.nil_append, List.map_cons,
        List.cons.injEq, true_and] at heq
      have hblank := hgap c List.mem_cons_self
      rw [(toLower_eq_iff (by decide)).1 heq.1] at hblank
      cases hblank

/-! ## The canonical form of a phrasing -/

theorem lacks_cons {c d : Char} {t : Text} (hd : d.toLower ≠ c) (ht : Lacks c t) :
    Lacks c (d :: t) := by
  intro e he
  rcases List.mem_cons.1 he with rfl | he
  · exact hd
  · exact ht e he

theorem OptionalSign.lacks {c : Char} {rest sign : Text} (h : OptionalSign ')' rest sign)
    (hc : isArithmeticChar c = false) : Lacks c sign := by
  refine lacks_of_arithmetic (fun d hd => ?_) hc
  cases h with
  | present hgap =>
      rcases List.mem_append.1 hd with hd | hd
      · simp [isArithmeticChar, hgap.allWhiteSpace d hd]
      · rw [List.mem_singleton.1 hd]
        decide
  | absent => exact absurd hd List.not_mem_nil

/-- The canonical form, pass by pass. -/
theorem canonical_of_passes {query t₁ t₂ t₃ t₄ : Text}
    (h₁ : replaceAll radicalRule (Text.trim query) = t₁) (h₂ : replaceAll phraseRule t₁ = t₂)
    (h₃ : (leadingRoot? t₂).getD t₂ = t₃) (h₄ : replaceAll callRule t₃ = t₄) :
    canonical query = t₄ := by
  rw [← h₄, ← h₃, ← h₂, ← h₁, canonical]

/-- The first pass leaves a text without a radical sign. -/
theorem radicalPass_of_lacks {query t : Text} (ht : Text.trim query = t) (h : Lacks '√' t) :
    replaceAll radicalRule (Text.trim query) = t := by
  rw [ht]
  exact replaceAll_radicalRule (h.not_mem (by decide))

theorem replaceAll_callRule_rootCall {argument : Literal} (h : argument.IsDecimal) :
    replaceAll callRule (rootCall argument) = rootCall argument := by
  have hrule := callRule_rootCall h []
  rw [List.append_nil] at hrule
  exact replaceAll_whole callRule_consumes hrule

/-- What the first pass leaves opened becomes the call of its literal. -/
theorem canonical_of_openCall {query call closing : Text} {argument : Literal}
    (hcall : OpenCall argument call) (hclosing : OptionalSign ')' [] closing)
    (h : replaceAll radicalRule (Text.trim query) = call ++ closing) :
    canonical query = rootCall argument := by
  have hsegment : IsSegment (call ++ closing) :=
    hcall.isSegment.append (hclosing.lacks (by decide))
  have hphrase : phraseRule (call ++ closing) = none := by
    obtain ⟨hopening, -, -⟩ := hcall
    rw [List.append_assoc]
    exact phraseRule_call hopening _
  have hends : argument.EndsBefore closing := by
    cases hclosing with
    | present hgap => exact (argument.endsBefore_cons (by decide) (by decide) []).gap hgap
    | absent => exact argument.endsBefore_nil
  have hrule : callRule (call ++ closing) = some (rootCall argument, []) :=
    callRule_eq_some_iff.2 ⟨argument, call, closing, hcall, hclosing, by rwa [List.append_nil],
      by rw [List.append_nil], rfl⟩
  refine canonical_of_passes h (replaceAll_segment phraseRule_readsSegments hsegment hphrase) ?_
    (replaceAll_whole callRule_consumes hrule)
  rw [leadingRoot?_segment hsegment, Option.getD_none]

theorem canonical_of_squareRootPhrase {query t : Text} {argument : Literal}
    (h : SquareRootPhrase argument t) (ht : replaceAll radicalRule (Text.trim query) = t) :
    canonical query = rootCall argument := by
  have hrule : phraseRule t = some (rootCall argument, []) :=
    phraseRule_eq_some_iff.2
      ⟨argument, t, h, argument.endsBefore_nil, (List.append_nil t).symm, rfl⟩
  obtain ⟨-, -, -, -, -, -, hargument⟩ := h
  refine canonical_of_passes ht (replaceAll_whole phraseRule_consumes hrule) ?_
    (replaceAll_callRule_rootCall hargument)
  rw [leadingRoot?_segment (isSegment_rootCall hargument), Option.getD_none]

theorem canonical_of_rootPhrase {query t : Text} {argument : Literal}
    (h : RootPhrase argument t) (ht : replaceAll radicalRule (Text.trim query) = t) :
    canonical query = rootCall argument := by
  have hleading := leadingRoot?_eq_some_iff.2 ⟨argument, h, rfl⟩
  have hphrase := replaceAll_of_lacks phraseRule_readsSegments h.lacks
  obtain ⟨-, -, hargument⟩ := h
  refine canonical_of_passes ht hphrase ?_ (replaceAll_callRule_rootCall hargument)
  rw [hleading, Option.getD_some]

theorem callText_rootCall {argument : Literal} (h : argument.IsDecimal) :
    CallText argument (rootCall argument) := by
  have hcall : CallText argument
      (sqrtWord ++ ([] ++ '(' :: ([] ++ (argument.text ++ ([] ++ [')']))))) :=
    .intro (by decide) allBlank_nil allBlank_nil h allBlank_nil
  simpa [rootCall, callOpening, sqrtWord] using hcall

/-- What stands behind the name in a call has no letter and no radical sign. -/
theorem lacks_inside {c : Char} (hc : isArithmeticChar c = false) {argument : Literal}
    (hargument : argument.IsDecimal) {gap inner closing rest : Text} (hgap : AllBlank gap)
    (hinner : AllBlank inner) (hclosing : OptionalSign ')' rest closing) :
    Lacks c (gap ++ '(' :: (inner ++ (argument.text ++ closing))) := by
  refine (hgap.lacks hc).append (lacks_cons ?_ ?_)
  · rintro rfl
    exact absurd hc (by decide)
  · exact (hinner.lacks hc).append ((hargument.lacks hc).append (hclosing.lacks hc))

/-- A call without a gap in front of its parenthesis is brought into canonical form; with a gap
it stays as it is. -/
theorem canonical_of_callText {query t : Text} {argument : Literal} (h : CallText argument t)
    (ht : replaceAll radicalRule (Text.trim query) = t) :
    canonical query = rootCall argument ∨ canonical query = t := by
  obtain @⟨word, gap, inner, inner', hword, hgap, hinner, hargument, hinner'⟩ := h
  by_cases hne : gap = []
  · subst hne
    left
    have hopening : IsWord callOpening (word ++ ['(']) := by
      rw [IsWord, List.map_append, hword]
      rfl
    refine canonical_of_openCall (.intro hopening hinner hargument) (.present hinner') ?_
    rw [ht]
    simp
  · right
    have hclosing : OptionalSign ')' [] (inner' ++ [')']) := .present hinner'
    have hsegment := (hword.isSegment (by decide)).append
      (lacks_inside (by decide) hargument hgap hinner hclosing)
    refine canonical_of_passes ht
      (replaceAll_segment phraseRule_readsSegments hsegment (phraseRule_call hword _)) ?_
      (replaceAll_segment callRule_readsSegments hsegment (callRule_gap hword hgap hne _))
    rw [leadingRoot?_segment hsegment, Option.getD_none]

theorem optionalSign_nil (c : Char) : OptionalSign c [] [] :=
  .absent fun gap tail _ h => absurd h.symm (by simp)

/-- In front of a literal a radical sign stands alone. -/
theorem optionalSign_literal {argument : Literal} (hargument : argument.IsDecimal) {gap : Text}
    (hgap : AllBlank gap) : OptionalSign '(' (gap ++ argument.text) [] := by
  refine .absent fun gap' tail hgap' hsplit => ?_
  have hskip := (skipBlanks_eq_cons_iff (by decide)).2 ⟨gap', hgap', hsplit⟩
  have hahead := hargument.noBlankAhead []
  rw [List.append_nil] at hahead
  rw [Text.skipBlanks_gap hgap hahead] at hskip
  have hmem : '(' ∈ argument.text := by rw [hskip]; exact List.mem_cons_self
  exact absurd (hargument.mem_text hmem) (by decide)

theorem SquareRootPhrase.lacks_radical {argument : Literal} {t : Text}
    (h : SquareRootPhrase argument t) : Lacks '√' t := by
  obtain ⟨hsquare, hgap₁, hroot, hgap₂, hof, hgap₃, hargument⟩ := h
  refine (hsquare.lacks (by decide)).append ((hgap₁.lacks (by decide)).append ?_)
  refine (hroot.lacks (by decide)).append ((hgap₂.lacks (by decide)).append ?_)
  refine (hof.lacks (by decide)).append ((hgap₃.lacks (by decide)).append ?_)
  exact hargument.lacks (by decide)

theorem CallText.lacks_radical {argument : Literal} {t : Text} (h : CallText argument t) :
    Lacks '√' t := by
  obtain @⟨word, gap, inner, inner', hword, hgap, hinner, hargument, hinner'⟩ := h
  have hclosing : OptionalSign ')' [] (inner' ++ [')']) := .present hinner'
  exact (hword.lacks (by decide)).append
    (lacks_inside (by decide) hargument hgap hinner hclosing)

/-- A radical sign in front of a literal, or of a literal in parentheses, opens a call. -/
theorem canonical_of_radical {query opening inner closing : Text} {argument : Literal}
    (hargument : argument.IsDecimal) (hinner : AllBlank inner)
    (hopening : OptionalSign '(' (inner ++ (argument.text ++ closing)) opening)
    (hclosing : OptionalSign ')' [] closing)
    (ht : Text.trim query = '√' :: (opening ++ (inner ++ (argument.text ++ closing)))) :
    canonical query = rootCall argument := by
  have hrule := radicalRule_eq_some_iff.2 ⟨rfl, opening, hopening, ht⟩
  have hlacks : Lacks '√' (inner ++ (argument.text ++ closing)) :=
    (hinner.lacks (by decide)).append
      ((hargument.lacks (by decide)).append (hclosing.lacks (by decide)))
  refine canonical_of_openCall (.intro isWord_callOpening hinner hargument) hclosing ?_
  rw [replaceAll_of_some radicalRule_consumes hrule,
    replaceAll_radicalRule (hlacks.not_mem (by decide))]
  simp only [List.append_assoc]

/-- The canonical form of a phrasing is a root call of its literal. -/
theorem Phrasing.callText_canonical {argument : Literal} (hargument : argument.IsDecimal)
    {query t : Text} (h : Phrasing argument t) (ht : Text.trim query = t) :
    CallText argument (canonical query) := by
  have hcall := callText_rootCall hargument
  cases h with
  | @radical gap hgap =>
      have hopening := optionalSign_literal hargument hgap
      rw [← List.append_nil argument.text] at hopening ht
      rwa [canonical_of_radical hargument hgap hopening (optionalSign_nil ')') ht]
  | @radicalCall gap inner closing hgap hinner hclosing =>
      have hopening : OptionalSign '(' (inner ++ (argument.text ++ closing)) (gap ++ ['(']) :=
        .present hgap
      rwa [canonical_of_radical hargument hinner hopening hclosing (by simpa using ht)]
  | squareRootOf h => rwa [canonical_of_squareRootPhrase h (radicalPass_of_lacks ht h.lacks_radical)]
  | @root word gap hword hgap hne =>
      have hlacks : Lacks '√' (word ++ (gap ++ argument.text)) :=
        (hword.lacks (by decide)).append
          ((hgap.lacks (by decide)).append (hargument.lacks (by decide)))
      rwa [canonical_of_rootPhrase (.intro hword hgap hargument)
        (radicalPass_of_lacks ht hlacks)]
  | call h =>
      rcases canonical_of_callText h (radicalPass_of_lacks ht h.lacks_radical) with heq | heq
      · rwa [heq]
      · rwa [heq]

/-! ## Outcomes -/

/-- The outcome of asking for the root of a literal. -/
def rootOutcome (limits : Limits) (argument : Literal) : Outcome :=
  match readRadicand argument.text limits.maxRadicand with
  | .ok n => ⟨explainRoot n, .root⟩
  | .error cause => Explainer.reject (.invalidRadicand cause)

/-- A root call is explained by its literal, or its literal is no radicand. -/
theorem explainText_of_rootCall (limits : Limits) {t : Text} {argument : Literal}
    (h : parseRootCall t = .ok argument) : explainText limits t Pattern.all =
      match readRadicand argument.text limits.maxRadicand with
      | .ok n => .ok ⟨explainRoot n, .root⟩
      | .error cause => .error (.invalidRadicand cause) := by
  have hall := explainText_all limits t
  rw [h] at hall
  exact hall

theorem explainMath_of_callText (e : Explainer) {query : String} {argument : Literal}
    (hcall : CallText argument (canonical query.toList)) :
    e.explainMath query = match readRadicand argument.text e.limits.maxRadicand with
      | .ok n => .ok ⟨explainRoot n, .root⟩
      | .error cause => .error (.invalidRadicand cause) :=
  explainText_of_rootCall e.limits
    (parseRootCall_eq_ok_iff.2 ⟨[], _, [], allBlank_nil, hcall, allBlank_nil, by simp⟩)

/-- A query with a cue of a root that is canonically a root call is answered by its literal. -/
theorem run_eq_rootOutcome {e : Explainer} {query : String} {argument : Literal}
    (hlength : query.length ≤ e.limits.maxQueryChars)
    (hcue : HasRootCue (Text.trim query.toList))
    (hcall : CallText argument (canonical query.toList)) :
    e.run query = rootOutcome e.limits argument := by
  have hmath : (mathCue? query.toList).isSome = true := by
    cases hnone : mathCue? query.toList with
    | some cue => rfl
    | none => exact absurd hcue (mathCue?_eq_none_iff.1 hnone).1
  rw [Explainer.run_eq, if_neg (Nat.not_lt.2 hlength), if_pos hmath,
    explainMath_of_callText e hcall, rootOutcome]
  cases readRadicand argument.text e.limits.maxRadicand <;> rfl

/-- Every phrasing of the root of a literal, with white space around it, has the outcome of the
call of the literal. -/
theorem run_eq_of_phrasing {e : Explainer} {argument : Literal} {query : String}
    {before phrase after : Text} (hargument : argument.IsDecimal)
    (hphrase : Phrasing argument phrase) (hbefore : AllWhiteSpace before)
    (hafter : AllWhiteSpace after) (hquery : query.toList = before ++ phrase ++ after)
    (hlength : query.length ≤ e.limits.maxQueryChars)
    (hlength' : (String.ofList (rootCall argument)).length ≤ e.limits.maxQueryChars) :
    e.run query = e.run (String.ofList (rootCall argument)) ∧
      e.run query = rootOutcome e.limits argument := by
  have hrun {query' : String} {t : Text} (ht : Phrasing argument t)
      (htrim : Text.trim query'.toList = t) (hlength : query'.length ≤ e.limits.maxQueryChars) :
      e.run query' = rootOutcome e.limits argument :=
    run_eq_rootOutcome hlength (by rw [htrim]; exact ht.hasRootCue)
      (ht.callText_canonical hargument htrim)
  have htrim : Text.trim query.toList = phrase := by
    rw [hquery]
    exact Text.trim_append hbefore hafter (hphrase.isTrimmed hargument)
  have hcall : Phrasing argument (rootCall argument) := .call (callText_rootCall hargument)
  have htrim' : Text.trim (String.ofList (rootCall argument)).toList = rootCall argument := by
    rw [String.toList_ofList]
    exact Text.trim_eq_self (isTrimmed_rootCall argument)
  have hoccurs := hrun hphrase htrim hlength
  exact ⟨hoccurs.trans (hrun hcall htrim' hlength').symm, hoccurs⟩

/-- The phrase in words, with other letters and more blanks, and white space around it. -/
theorem run_eq_of_phrasing_words :
    (⟨false, ['1', '4', '4'], none⟩ : Literal).IsDecimal ∧
      ({} : Explainer).run "\tSquare  ROOT of144 " = ({} : Explainer).run "sqrt(144)" ∧
      ({} : Explainer).run "\tSquare  ROOT of144 " = ⟨explainRoot 144, .root⟩ := by
  have hargument : (⟨false, ['1', '4', '4'], none⟩ : Literal).IsDecimal :=
    .whole (by decide) (by decide)
  have hphrase : Phrasing ⟨false, ['1', '4', '4'], none⟩
      (['S', 'q', 'u', 'a', 'r', 'e'] ++ ([' ', ' '] ++ (['R', 'O', 'O', 'T'] ++ ([' '] ++
        (['o', 'f'] ++ ([] ++ ['1', '4', '4'])))))) :=
    .squareRootOf (.intro (by decide) (by decide) (by decide) (by decide) (by decide) (by decide)
      hargument)
  have hquery : "\tSquare  ROOT of144 ".toList = ['\t'] ++
      (['S', 'q', 'u', 'a', 'r', 'e'] ++ ([' ', ' '] ++ (['R', 'O', 'O', 'T'] ++ ([' '] ++
        (['o', 'f'] ++ ([] ++ ['1', '4', '4'])))))) ++ [' '] := by decide
  obtain ⟨hsame, hroot⟩ := run_eq_of_phrasing (e := {}) hargument hphrase (by decide) (by decide)
    hquery (by decide) (by decide)
  exact ⟨hargument, hsame, hroot⟩

end Stepwise
