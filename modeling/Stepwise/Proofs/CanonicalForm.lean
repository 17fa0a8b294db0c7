import Stepwise.Proofs.Phrasing

set_option autoImplicit false

/-! # The canonical form is a fixed point

In a canonical text no phrasing of a root is left but `sqrt(N)` (`IsCanonical`). Every pass of
the canonical form removes one phrasing, and no later pass brings it back: phrases and calls are
segments, and so are the calls that the passes write, so a phrase that stands in the result of a
pass stood in the text before, or starts with a call that was written. The trimmed canonical
texts are the texts that the canonical form does not change.
-/

namespace Stepwise

/-- No phrase "square root of N" stands in the text. -/
def HasNoPhrase (t : Text) : Prop :=
  ∀ argument before phrase after, SquareRootPhrase argument phrase →
    t ≠ before ++ phrase ++ after

/-- The only phrasing of a root in the text is `sqrt(N)`. -/
structure IsCanonical (t : Text) : Prop where
  radical : '√' ∉ t
  phrase : HasNoPhrase t
  root : ∀ argument, ¬ RootPhrase argument t
  call : ∀ argument before call after, OpenCall argument call → argument.EndsBefore after →
    t = before ++ call ++ after → ∃ rest, call ++ after = rootCall argument ++ rest

/-! ## Where the rules apply -/

/-- A literal at the start of a text can be read as far as it goes. -/
theorem exists_endsBefore {l : Literal} (h : l.IsDecimal) (rest : Text) :
    ∃ l' rest', l'.IsDecimal ∧ Literal.EndsBefore l' rest' ∧
      l.text ++ rest = l'.text ++ rest' := by
  obtain ⟨l', rest', hscan⟩ := exists_scanSigned h rest
  obtain ⟨hdecimal, hsplit⟩ := scanSigned_sound hscan
  exact ⟨l', rest', hdecimal, scanSigned_endsBefore hscan, hsplit⟩

theorem SquareRootPhrase.applies {argument : Literal} {phrase : Text}
    (h : SquareRootPhrase argument phrase) (rest : Text) : phraseRule (phrase ++ rest) ≠ none := by
  obtain ⟨hsquare, hgap₁, hroot, hgap₂, hof, hgap₃, hargument⟩ := h
  obtain ⟨argument', rest', hargument', hends, hsplit⟩ := exists_endsBefore hargument rest
  have hrule := phraseRule_eq_some_iff.2
    ⟨argument', _, .intro hsquare hgap₁ hroot hgap₂ hof hgap₃ hargument', hends, rfl, rfl⟩
  simp only [List.append_assoc] at hrule ⊢
  rw [hsplit, hrule]
  exact Option.some_ne_none _

theorem OpenCall.exists_callRule {argument : Literal} {call after : Text}
    (h : OpenCall argument call) (hends : argument.EndsBefore after) :
    ∃ rest, callRule (call ++ after) = some (rootCall argument, rest) := by
  obtain ⟨closing, rest, hclosing, rfl⟩ := exists_optionalSign ')' after
  exact ⟨rest, callRule_eq_some_iff.2 ⟨argument, call, closing, h, hclosing, hends, rfl, rfl⟩⟩

theorem OpenCall.applies {argument : Literal} {call : Text} (h : OpenCall argument call)
    (rest : Text) : callRule (call ++ rest) ≠ none := by
  obtain ⟨hopening, hgap, hargument⟩ := h
  obtain ⟨argument', rest', hargument', hends, hsplit⟩ := exists_endsBefore hargument rest
  obtain ⟨after, hrule⟩ := (OpenCall.intro hopening hgap hargument').exists_callRule hends
  simp only [List.append_assoc] at hrule ⊢
  rw [hsplit, hrule]
  exact Option.some_ne_none _

theorem replaceAll_radicalRule {t : Text} (h : '√' ∉ t) : replaceAll radicalRule t = t := by
  refine replaceAll_eq_of_exact fun before u written rest _ ht hrule => ?_
  obtain ⟨-, opening, -, rfl⟩ := radicalRule_eq_some_iff.1 hrule
  exact absurd (by simp [ht]) h

theorem phraseRule_rootCall (argument : Literal) (rest : Text) :
    phraseRule (rootCall argument ++ rest) = none := rfl

theorem callRule_rootCall {argument : Literal} (h : argument.IsDecimal) (rest : Text) :
    callRule (rootCall argument ++ rest) = some (rootCall argument, rest) := by
  refine callRule_eq_some_iff.2 ⟨argument, callOpening ++ argument.text, [')'],
    .intro isWord_callOpening allBlank_nil h, .present allBlank_nil, ?_, ?_, rfl⟩
  · exact argument.endsBefore_cons (by decide) (by decide) rest
  · simp [rootCall]

/-! ## What the passes write -/

/-- The rule writes root calls. -/
def PhrasingRule.WritesCalls (rule : PhrasingRule) : Prop :=
  ∀ t written rest, rule t = some (written, rest) →
    ∃ argument, argument.IsDecimal ∧ written = rootCall argument

theorem phraseRule_writesCalls : phraseRule.WritesCalls := by
  intro t written rest h
  obtain ⟨argument, phrase, ⟨-, -, -, -, -, -, hargument⟩, -, -, hwritten⟩ :=
    phraseRule_eq_some_iff.1 h
  exact ⟨argument, hargument, hwritten⟩

theorem callRule_writesCalls : callRule.WritesCalls := by
  intro t written rest h
  obtain ⟨argument, call, closing, hcall, -, -, -, hwritten⟩ := callRule_eq_some_iff.1 h
  exact ⟨argument, hcall.isDecimal, hwritten⟩

theorem PhrasingRule.WritesCalls.isSegment {rule : PhrasingRule} (h : rule.WritesCalls)
    (t written rest : Text) (hrule : rule t = some (written, rest)) : IsSegment written := by
  obtain ⟨argument, hargument, rfl⟩ := h t written rest hrule
  exact isSegment_rootCall hargument

theorem not_mem_rootCall {argument : Literal} (h : argument.IsDecimal) :
    '√' ∉ rootCall argument := by
  intro hmem
  rw [rootCall, List.mem_append, List.mem_append] at hmem
  rcases hmem with (hmem | hmem) | hmem
  · exact absurd hmem (by decide)
  · exact absurd (h.mem_text hmem) (by decide)
  · exact absurd hmem (by decide)

theorem isTrimmed_rootCall (argument : Literal) : Text.IsTrimmed (rootCall argument) := by
  constructor
  · intro c hc
    cases hc
    decide
  · intro c hc
    rw [rootCall, List.getLast?_concat] at hc
    cases hc
    decide

theorem PhrasingRule.WritesCalls.isTrimmed {rule : PhrasingRule} (h : rule.WritesCalls)
    (t written rest : Text) (hrule : rule t = some (written, rest)) :
    written ≠ [] ∧ Text.IsTrimmed written := by
  obtain ⟨argument, hargument, rfl⟩ := h t written rest hrule
  exact ⟨(isSegment_rootCall hargument).ne_nil, isTrimmed_rootCall argument⟩

theorem radicalRule_isTrimmed (t written rest : Text)
    (h : radicalRule t = some (written, rest)) : written ≠ [] ∧ Text.IsTrimmed written := by
  rw [(radicalRule_eq_some_iff.1 h).1]
  refine ⟨by decide, ⟨?_, ?_⟩⟩
  · intro c hc
    cases hc
    decide
  · intro c hc
    cases hc
    decide

/-! ## The passes -/

theorem radical_not_mem_replaceAll (t : Text) : '√' ∉ replaceAll radicalRule t := by
  intro hmem
  refine (rewrites_replaceAll radicalRule_consumes t).forall_mem (P := (· ≠ '√'))
    radicalRule_consumes ?_ ?_ _ hmem rfl
  · intro u written rest hrule c hc
    rw [(radicalRule_eq_some_iff.1 hrule).1] at hc
    rintro rfl
    exact absurd hc (by decide)
  · rintro c rest - hnone rfl
    exact radicalRule_ne_none rest hnone

section

variable {rule : PhrasingRule} {t : Text}

theorem radical_not_mem_of_writesCalls (hconsumes : rule.Consumes) (hrule : rule.WritesCalls)
    (h : '√' ∉ t) : '√' ∉ replaceAll rule t := by
  intro hmem
  refine (rewrites_replaceAll hconsumes t).forall_mem (P := (· ≠ '√')) hconsumes ?_ ?_ _ hmem rfl
  · rintro u written rest hu c hc rfl
    obtain ⟨argument, hargument, rfl⟩ := hrule u written rest hu
    exact not_mem_rootCall hargument hc
  · rintro c rest hc - rfl
    exact h hc

/-- A pass that writes root calls leaves no phrase, if it leaves none where it copies. -/
theorem hasNoPhrase_of_writesCalls (hconsumes : rule.Consumes) (hrule : rule.WritesCalls)
    (hcopied : ∀ argument before phrase rest, SquareRootPhrase argument phrase →
      t = before ++ phrase ++ rest → rule (phrase ++ rest) ≠ none) :
    HasNoPhrase (replaceAll rule t) := by
  intro argument before phrase after hphrase hsplit
  rcases (rewrites_replaceAll hconsumes t).segment_cases hconsumes hrule.isSegment
    hphrase.isSegment hsplit with ⟨before', rest, ht, hnone⟩ | ⟨u, written, rest, out, hu, hwritten⟩
  · exact hcopied argument before' phrase rest hphrase ht hnone
  · -- what is written starts with another word
    obtain ⟨argument', -, rfl⟩ := hrule u written rest hu
    have hnone := phraseRule_rootCall argument' out
    rw [← hwritten] at hnone
    exact hphrase.applies after hnone

end

theorem hasNoPhrase_rootCall {argument : Literal} (h : argument.IsDecimal) :
    HasNoPhrase (rootCall argument) := by
  intro argument' before phrase after hphrase hsplit
  obtain rfl := (isSegment_rootCall h).eq_nil_of_append hphrase.isSegment hsplit
  have hnone := phraseRule_rootCall argument []
  rw [List.append_nil, hsplit] at hnone
  exact hphrase.applies after hnone

theorem RootPhrase.lacks {argument : Literal} {t : Text} (h : RootPhrase argument t) :
    Lacks 's' t := by
  obtain ⟨hroot, hgap, hargument⟩ := h
  exact (hroot.lacks (by decide)).append
    ((hgap.lacks (by decide)).append (hargument.lacks (by decide)))

/-- A pass that writes root calls leaves a whole text "root N" only as it was. -/
theorem RootPhrase.of_replaceAll {rule : PhrasingRule} (hconsumes : rule.Consumes)
    (hrule : rule.WritesCalls) {argument : Literal} {t : Text}
    (h : RootPhrase argument (replaceAll rule t)) : RootPhrase argument t := by
  have hpass := rewrites_replaceAll hconsumes t
  rw [← List.append_nil (replaceAll rule t)] at hpass
  obtain ⟨rest, ht, hrest⟩ := hpass.of_append hrule.isSegment h.lacks
  have hnil := hrest.eq_nil_of_nil fun u written rest hu =>
    (hrule.isSegment u written rest hu).ne_nil
  rw [hnil, List.append_nil] at ht
  rwa [ht]

/-! ## The canonical form -/

/-- The text before the last pass: no radical sign, no phrase, and no whole text "root N". -/
theorem exists_canonical_eq (query : Text) :
    ∃ t, canonical query = replaceAll callRule t ∧ '√' ∉ t ∧ HasNoPhrase t ∧
      (∀ argument, ¬ RootPhrase argument t) ∧ Text.IsTrimmed t := by
  have hradical := radical_not_mem_of_writesCalls phraseRule_consumes phraseRule_writesCalls
    (radical_not_mem_replaceAll (Text.trim query))
  have hphrase := hasNoPhrase_of_writesCalls phraseRule_consumes phraseRule_writesCalls
    (t := replaceAll radicalRule (Text.trim query)) fun _ _ _ rest h _ => h.applies rest
  have htrimmed := ((rewrites_replaceAll phraseRule_consumes _).isTrimmed phraseRule_consumes
    phraseRule_writesCalls.isTrimmed) ((rewrites_replaceAll radicalRule_consumes _).isTrimmed
      radicalRule_consumes radicalRule_isTrimmed (Text.isTrimmed_trim query))
  rw [canonical]
  generalize replaceAll phraseRule (replaceAll radicalRule (Text.trim query)) = t at *
  cases hleading : leadingRoot? t with
  | none =>
      refine ⟨t, rfl, hradical, hphrase, ?_, htrimmed⟩
      intro argument hroot
      rw [leadingRoot?_eq_some_iff.2 ⟨argument, hroot, rfl⟩] at hleading
      cases hleading
  | some written =>
      obtain ⟨argument, ⟨-, -, hargument⟩, rfl⟩ := leadingRoot?_eq_some_iff.1 hleading
      refine ⟨rootCall argument, rfl, not_mem_rootCall hargument,
        hasNoPhrase_rootCall hargument, ?_, isTrimmed_rootCall argument⟩
      intro argument' hroot
      exact absurd rfl (hroot.lacks 's' List.mem_cons_self)

theorem isTrimmed_canonical (query : Text) : Text.IsTrimmed (canonical query) := by
  obtain ⟨t, hcanonical, -, -, -, htrimmed⟩ := exists_canonical_eq query
  rw [hcanonical]
  exact (rewrites_replaceAll callRule_consumes t).isTrimmed callRule_consumes
    callRule_writesCalls.isTrimmed htrimmed

/-- An opened call that is canonical where it stands is the call of its literal. -/
theorem OpenCall.rootCall_eq {argument argument' : Literal} {call after rest : Text}
    (h : OpenCall argument call) (hends : argument.EndsBefore after)
    (hargument' : argument'.IsDecimal) (hsplit : call ++ after = rootCall argument' ++ rest) :
    rootCall argument' = rootCall argument := by
  obtain ⟨rest', hrule⟩ := h.exists_callRule hends
  rw [hsplit, callRule_rootCall hargument'] at hrule
  exact (Prod.mk.inj (Option.some.inj hrule)).1

theorem isCanonical_of_canonical (query : Text) : IsCanonical (canonical query) := by
  obtain ⟨t, hcanonical, hradical, hphrase, hroot, -⟩ := exists_canonical_eq query
  rw [hcanonical]
  constructor
  · exact radical_not_mem_of_writesCalls callRule_consumes callRule_writesCalls hradical
  · refine hasNoPhrase_of_writesCalls callRule_consumes callRule_writesCalls ?_
    intro argument before phrase rest h ht
    exact absurd ht (hphrase argument before phrase rest h)
  · intro argument h
    exact hroot argument (h.of_replaceAll callRule_consumes callRule_writesCalls)
  · intro argument before call after hcall hends hsplit
    rcases (rewrites_replaceAll callRule_consumes t).segment_cases callRule_consumes
      callRule_writesCalls.isSegment hcall.isSegment hsplit with
      ⟨before', rest, -, hnone⟩ | ⟨u, written, rest, out, hu, hwritten⟩
    · exact absurd hnone (hcall.applies rest)
    · obtain ⟨argument', hargument', rfl⟩ := callRule_writesCalls u written rest hu
      rw [hcall.rootCall_eq hends hargument' hwritten] at hwritten
      exact ⟨out, hwritten⟩

/-- A canonical text that is trimmed is not changed. -/
theorem canonical_eq_self {t : Text} (htrimmed : Text.IsTrimmed t) (h : IsCanonical t) :
    canonical t = t := by
  have hradical : replaceAll radicalRule t = t := replaceAll_radicalRule h.radical
  have hphrase : replaceAll phraseRule t = t := by
    refine replaceAll_eq_of_exact fun before u written rest _ ht hrule => ?_
    obtain ⟨argument, phrase, hphrase, -, rfl, -⟩ := phraseRule_eq_some_iff.1 hrule
    exact absurd (by rw [ht, List.append_assoc]) (h.phrase argument before phrase rest hphrase)
  have hleading : leadingRoot? t = none := by
    cases hleading : leadingRoot? t with
    | none => rfl
    | some written =>
        obtain ⟨argument, hroot, -⟩ := leadingRoot?_eq_some_iff.1 hleading
        exact absurd hroot (h.root argument)
  have hcall : replaceAll callRule t = t := by
    refine replaceAll_eq_of_exact fun before u written rest _ ht hrule => ?_
    obtain ⟨argument, call, closing, hcall, -, hends, rfl, rfl⟩ := callRule_eq_some_iff.1 hrule
    obtain ⟨rest', hexact⟩ :=
      h.call argument before call _ hcall hends (by rw [ht, List.append_assoc])
    rw [hexact, callRule_rootCall hcall.isDecimal] at hrule
    rw [hexact, (Prod.mk.inj (Option.some.inj hrule)).2]
  rw [canonical, Text.trim_eq_self htrimmed]
  simp only [hradical, hphrase, hleading, Option.getD_none, hcall]

theorem canonical_trim (query : Text) : canonical (Text.trim query) = canonical query := by
  rw [canonical, canonical, Text.trim_eq_self (Text.isTrimmed_trim query)]

/-- The canonical form is idempotent, its texts are canonical, and a text is not changed exactly
when it is trimmed and canonical. -/
theorem canonical_canonical (query : Text) :
    canonical (canonical query) = canonical query ∧ IsCanonical (canonical query) ∧
      (canonical query = query ↔ Text.IsTrimmed query ∧ IsCanonical query) := by
  refine ⟨canonical_eq_self (isTrimmed_canonical query) (isCanonical_of_canonical query),
    isCanonical_of_canonical query, ?_, fun h => canonical_eq_self h.1 h.2⟩
  intro h
  rw [← h]
  exact ⟨isTrimmed_canonical query, isCanonical_of_canonical query⟩

end Stepwise
