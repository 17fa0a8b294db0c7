import Stepwise.Proofs.LetterCase
import Stepwise.Proofs.Routing
import Stepwise.Proofs.Synonyms

set_option autoImplicit false

/-! # Queries in another spelling

Two queries are spellings of one another if they differ in the case of letters and in the white
space around them. They have the same cue, and their canonical forms differ in the case of letters
only. If such a form has no foreign character it has no letter either, so the two are equal. If it
has one, it is a root call, which is answered by its literal, or the gate refuses it.
-/

namespace Stepwise

open Text

/-- The second text is the first one with letters of another case and other white space at its
ends. -/
inductive Respells : Text → Text → Prop
  | intro {before t after before' t' after' : Text} (hbefore : AllWhiteSpace before)
      (hafter : AllWhiteSpace after) (hbefore' : AllWhiteSpace before')
      (hafter' : AllWhiteSpace after') (hcase : lower t = lower t') :
      Respells (before ++ t ++ after) (before' ++ t' ++ after')

/-- The same route, or two rejections of one kind and code. -/
inductive Route.Agrees : Route → Route → Prop
  | same (route : Route) : Agrees route route
  | rejected {reason reason' : Rejection} (hkind : reason.kind = reason'.kind)
      (hcode : reason.code = reason'.code) : Agrees (.rejected reason) (.rejected reason')

/-! ## Spellings -/

/-- Trimming also takes away the white space that is put around a text. -/
theorem trim_padded {before after : Text} (hbefore : AllWhiteSpace before)
    (hafter : AllWhiteSpace after) (t : Text) : trim (before ++ t ++ after) = trim t := by
  obtain ⟨start, ending, hstart, hending, ht⟩ := exists_trim t
  have hsplit : before ++ t ++ after = (before ++ start) ++ trim t ++ (ending ++ after) := by
    nth_rewrite 1 [ht]
    simp only [List.append_assoc]
  rw [hsplit]
  exact trim_append (List.forall_mem_append.2 ⟨hbefore, hstart⟩)
    (List.forall_mem_append.2 ⟨hending, hafter⟩) (isTrimmed_trim t)

theorem respells_iff {t t' : Text} : Respells t t' ↔ lower (trim t) = lower (trim t') := by
  constructor
  · rintro ⟨hbefore, hafter, hbefore', hafter', hcase⟩
    rw [trim_padded hbefore hafter, trim_padded hbefore' hafter', ← trim_lower, ← trim_lower, hcase]
  · intro hcase
    obtain ⟨before, after, hbefore, hafter, ht⟩ := exists_trim t
    obtain ⟨before', after', hbefore', hafter', ht'⟩ := exists_trim t'
    rw [ht, ht']
    exact .intro hbefore hafter hbefore' hafter' hcase

theorem mathCue?_trim (query : Text) : mathCue? (trim query) = mathCue? query := by
  rw [mathCue?, mathCue?, trim_eq_self (isTrimmed_trim query)]

namespace Respells

variable {query query' : Text}

theorem mathCue?_eq (h : Respells query query') : mathCue? query = mathCue? query' := by
  rw [← mathCue?_trim query, ← mathCue?_lower, respells_iff.1 h, mathCue?_lower, mathCue?_trim]

theorem lower_canonical (h : Respells query query') :
    lower (canonical query) = lower (canonical query') := by
  rw [← canonical_trim query, ← canonical_lower, respells_iff.1 h, canonical_lower, canonical_trim]

end Respells

/-! ## Foreign characters -/

theorem hasForeign_iff_any {t : Text} :
    HasForeign t ↔ t.any (fun c => !isArithmeticChar c) = true := by
  simp [HasForeign]

theorem hasForeign_lower_iff {t : Text} : HasForeign (lower t) ↔ HasForeign t := by
  rw [hasForeign_iff_any, hasForeign_iff_any, any_lower]
  intro c
  rw [isArithmeticChar_toLower]

theorem lower_of_not_hasForeign {t : Text} (h : ¬ HasForeign t) : lower t = t :=
  lower_eq_self fun c hc => not_isAlpha_of_isArithmeticChar ((not_hasForeign_iff t).1 h c hc)

/-! ## Root calls -/

theorem toOption_bind {ε α β : Type} (x : Except ε α) (f : α → Except ε β) :
    (x >>= f).toOption = x.toOption.bind fun a => (f a).toOption := by
  cases x <;> rfl

theorem expectWord_lower (word t : Text) :
    (expectWord word (lower t)).toOption = (expectWord word t).toOption.map lower := by
  rw [expectWord, expectWord, dropWord?_lower]
  cases dropWord? word t <;> rfl

theorem expectChar_lower {c : Char} (hc : c.isAlpha = false) (t : Text) :
    (expectChar c (lower t)).toOption = (expectChar c t).toOption.map lower := by
  cases t with
  | nil => rfl
  | cons d t =>
      rw [lower_cons, expectChar, expectChar]
      simp only [toLower_eq_iff hc]
      split <;> rfl

theorem expectEnd_lower (t : Text) : (expectEnd (lower t)).toOption = (expectEnd t).toOption := by
  cases t <;> rfl

/-- The literal of a root call does not depend on the case of its letters. -/
theorem parseRootCall_lower (t : Text) :
    (parseRootCall (lower t)).toOption = (parseRootCall t).toOption := by
  simp only [parseRootCall, toOption_bind, skipBlanks_lower, expectWord_lower, Option.bind_map,
    Function.comp_def, expectChar_lower (show '('.isAlpha = false from rfl), scanSigned_lower,
    expectChar_lower (show ')'.isAlpha = false from rfl), expectEnd_lower, Prod.map_fst,
    Prod.map_snd, id]

/-- Texts that differ in the case of letters are root calls of the same literal. -/
theorem parseRootCall_eq_ok_of_lower {t t' : Text} (h : lower t = lower t') {argument : Literal}
    (hcall : parseRootCall t = .ok argument) : parseRootCall t' = .ok argument := by
  have htoOption : (parseRootCall t').toOption = some argument := by
    rw [← parseRootCall_lower, ← h, parseRootCall_lower, hcall]
    rfl
  cases hread : parseRootCall t' with
  | ok argument' =>
      rw [hread] at htoOption
      exact congrArg Except.ok (Option.some.inj htoOption)
  | error place =>
      rw [hread] at htoOption
      cases htoOption

/-! ## Outcomes -/

/-- Texts that differ in the case of letters have the same explanation, or the gate refuses
both. -/
theorem explainText_cases (limits : Limits) {t t' : Text} (h : lower t = lower t') :
    explainText limits t Pattern.all = explainText limits t' Pattern.all ∨
      ∃ cause cause', explainText limits t Pattern.all = .error (.unsupported cause) ∧
        explainText limits t' Pattern.all = .error (.unsupported cause') := by
  by_cases hforeign : HasForeign t
  · have hforeign' : HasForeign t' := by rwa [← hasForeign_lower_iff, ← h, hasForeign_lower_iff]
    by_cases hcall : ∃ argument, parseRootCall t = .ok argument
    · obtain ⟨argument, hcall⟩ := hcall
      have hcall' := parseRootCall_eq_ok_of_lower h hcall
      left
      rw [explainText_of_rootCall limits hcall, explainText_of_rootCall limits hcall']
    · have hcall' : ¬ ∃ argument, parseRootCall t' = .ok argument := fun ⟨argument, hread⟩ =>
        hcall ⟨argument, parseRootCall_eq_ok_of_lower h.symm hread⟩
      obtain ⟨c, position, -, hexplain⟩ :=
        explainText_of_not_rootCall limits hforeign (not_exists.1 hcall)
      obtain ⟨c', position', -, hexplain'⟩ :=
        explainText_of_not_rootCall limits hforeign' (not_exists.1 hcall')
      exact .inr ⟨_, _, hexplain, hexplain'⟩
  · have hforeign' : ¬ HasForeign t' := by rwa [← hasForeign_lower_iff, ← h, hasForeign_lower_iff]
    rw [lower_of_not_hasForeign hforeign, lower_of_not_hasForeign hforeign'] at h
    exact .inl (by rw [h])

/-- A query in another spelling has the same cue and takes the same route, or is rejected in the
same way. Unless it is a general question, it has the same trace. -/
theorem run_of_respells {e : Explainer} {query query' : String}
    (h : Respells query.toList query'.toList) (hlength : query.length ≤ e.limits.maxQueryChars)
    (hlength' : query'.length ≤ e.limits.maxQueryChars) :
    mathCue? query.toList = mathCue? query'.toList ∧
      (e.run query).route.Agrees (e.run query').route ∧
      ((e.run query).route ≠ .general → (e.run query).trace = (e.run query').trace) := by
  have hcue := h.mathCue?_eq
  refine ⟨hcue, ?_⟩
  rw [Explainer.run_eq, Explainer.run_eq, if_neg (Nat.not_lt.2 hlength),
    if_neg (Nat.not_lt.2 hlength'), ← hcue]
  split
  · rcases explainText_cases e.limits h.lower_canonical with
      hsame | ⟨cause, cause', hrefused, hrefused'⟩
    · rw [Explainer.explainMath, Explainer.explainMath, hsame]
      exact ⟨.same _, fun _ => rfl⟩
    · rw [Explainer.explainMath, Explainer.explainMath, hrefused, hrefused']
      exact ⟨.rejected rfl rfl, fun _ => rfl⟩
  · exact ⟨.same .general, fun hgeneral => absurd rfl hgeneral⟩

/-- The phrase in capitals, with white space around it. -/
theorem run_of_respells_capitals :
    Respells "square root of 72".toList "\tSQUARE ROOT OF 72 ".toList ∧
      "square root of 72".length ≤ ({} : Explainer).limits.maxQueryChars ∧
      "\tSQUARE ROOT OF 72 ".length ≤ ({} : Explainer).limits.maxQueryChars ∧
      mathCue? "square root of 72".toList = mathCue? "\tSQUARE ROOT OF 72 ".toList ∧
      (({} : Explainer).run "square root of 72").route.Agrees
        (({} : Explainer).run "\tSQUARE ROOT OF 72 ").route ∧
      (({} : Explainer).run "square root of 72").route = .root ∧
      (({} : Explainer).run "square root of 72").trace =
        (({} : Explainer).run "\tSQUARE ROOT OF 72 ").trace := by
  have hrespells : Respells "square root of 72".toList "\tSQUARE ROOT OF 72 ".toList :=
    respells_iff.2 (by decide)
  have hlength : "square root of 72".length ≤ ({} : Explainer).limits.maxQueryChars := by decide
  have hlength' : "\tSQUARE ROOT OF 72 ".length ≤ ({} : Explainer).limits.maxQueryChars := by
    decide
  have hroute : (({} : Explainer).run "square root of 72").route = .root := by decide +kernel
  obtain ⟨hcue, hagrees, htrace⟩ := run_of_respells (e := {}) hrespells hlength hlength'
  exact ⟨hrespells, hlength, hlength', hcue, hagrees, hroute, htrace (by rw [hroute]; decide)⟩

end Stepwise
