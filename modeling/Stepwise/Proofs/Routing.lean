import Stepwise.Explainer
import Stepwise.Proofs.Rewriting
import Stepwise.Proofs.SingleOperation

set_option autoImplicit false

/-! # What a cue allows

A cue is looked for in the trimmed query, and the patterns read the canonical form. The two
agree on what a text is: arithmetic text is not changed by the canonical form and goes to the
operations and expressions, and every other cue leaves a foreign character in it. The patterns
for operations and expressions never read a text with a foreign character, since the gate
refuses it, so such a text can only be a root call.
-/

namespace Stepwise

/-! ## Cues -/

/-- What a cue says of the trimmed query. -/
def Cue.Marks (t : Text) : Cue → Prop
  | .rootCall | .rootPhrase => HasForeign t
  | .arithmetic => ¬ HasForeign t
  | .symbolic => HasForeign t ∧ ∀ c ∈ t, c.isAlpha = false ∧ c ≠ '√'

theorem hasForeign_of_startsRootCall {t : Text} (h : startsRootCall t = true) :
    HasForeign t := by
  unfold startsRootCall at h
  split at h
  · next rest hword => exact hasForeign_of_dropWord? (by decide) hword
  · cases h

theorem hasForeign_of_startsSquareRoot {t : Text} (h : startsSquareRoot t = true) :
    HasForeign t := by
  unfold startsSquareRoot at h
  split at h
  · next rest hword => exact hasForeign_of_dropWord? (by decide) hword
  · cases h

theorem hasForeign_of_startsRootWord {t : Text} (h : startsRootWord t = true) :
    HasForeign t := by
  unfold startsRootWord at h
  split at h
  · next c rest hword => exact hasForeign_of_dropWord? (by decide) hword
  · cases h

theorem hasForeign_of_somewhere {test : Text → Bool}
    (htest : ∀ t, test t = true → HasForeign t) {t : Text} (h : somewhere test t = true) :
    HasForeign t := by
  induction t with
  | nil => cases h
  | cons c rest ih =>
      rw [somewhere, Bool.or_eq_true] at h
      rcases h with h | h
      · exact htest _ h
      · exact (hasForeign_cons_iff c rest).2 (.inr (ih h))

theorem isArithmeticText_iff (t : Text) :
    isArithmeticText t = true ↔ t ≠ [] ∧ ¬ HasForeign t := by
  rw [not_hasForeign_iff]
  simp [isArithmeticText]

/-- A cue is found in a query that is not empty, and says what it should. -/
theorem marks_of_mathCue? {query : Text} {cue : Cue} (h : mathCue? query = some cue) :
    Text.trim query ≠ [] ∧ cue.Marks (Text.trim query) := by
  unfold mathCue? at h
  dsimp only at h
  split at h
  · cases h
  next hne =>
    -- the cues in the order in which they are looked for
    refine ⟨hne, ?_⟩
    split at h
    · next hcall =>
        cases h
        exact hasForeign_of_startsRootCall (Bool.and_eq_true_iff.1 hcall).1
    next hcall =>
      split at h
      · next hphrase =>
          cases h
          simp only [Bool.or_eq_true] at hphrase
          rcases hphrase with (hradical | hsquare) | hroot
          · exact ⟨'√', by simpa using hradical, by decide⟩
          · exact hasForeign_of_somewhere (fun _ => hasForeign_of_startsSquareRoot) hsquare
          · exact hasForeign_of_startsRootWord hroot
      next hphrase =>
        split at h
        · next harithmetic =>
            cases h
            exact ((isArithmeticText_iff _).1 harithmetic).2
        next harithmetic =>
          split at h
          · next hsymbolic =>
              cases h
              simp only [Bool.and_eq_true, Bool.not_eq_true', List.any_eq_false] at hsymbolic
              constructor
              · by_contra hplain
                exact harithmetic ((isArithmeticText_iff _).2 ⟨hne, hplain⟩)
              · intro c hmem
                refine ⟨not_isAlpha_of_not_isAlphabetic (by simpa using hsymbolic.2 c hmem), ?_⟩
                rintro rfl
                simp [hmem] at hphrase
          · cases h

/-- The canonical form of a query without a root cue is the trimmed query. -/
theorem canonical_eq_trim_of_mathCue? {query : Text}
    (h : mathCue? query = some .arithmetic ∨ mathCue? query = some .symbolic) :
    canonical query = Text.trim query := by
  apply canonical_eq_trim
  rcases h with h | h
  · have hplain := (not_hasForeign_iff _).1 (marks_of_mathCue? h).2
    intro c hmem
    refine ⟨not_isAlpha_of_isArithmeticChar (hplain c hmem), ?_⟩
    rintro rfl
    exact absurd (hplain _ hmem) (by decide)
  · exact (marks_of_mathCue? h).2.2

/-! ## The gate -/

/-- The gate refuses a text with a foreign character, and names the first one. -/
theorem checkCharacters_of_hasForeign {t : Text} (h : HasForeign t) :
    ∃ c position, IsFirstForeign t c position ∧
      checkCharacters t = .error (.unsupportedCharacter c position) := by
  cases hforeign : firstForeign? t with
  | none =>
      have hplain := List.all_eq_true.1 ((firstForeign?_eq_none_iff t).1 hforeign)
      exact absurd h ((not_hasForeign_iff t).2 hplain)
  | some found =>
      obtain ⟨c, position⟩ := found
      -- white space is arithmetic, so the text does not count as empty
      have htrim : Text.trim t ≠ [] := by
        intro hnil
        obtain ⟨d, hmem, hd⟩ := h
        have hwhite := (Text.trim_eq_nil_iff t).1 hnil d hmem
        rw [isArithmeticChar_of_isWhiteSpace hwhite] at hd
        cases hd
      refine ⟨c, position, (firstForeign?_eq_some_iff t c position).1 hforeign, ?_⟩
      rw [checkCharacters, if_neg htrim, hforeign]

theorem parseExpression_of_hasForeign {t : Text} (h : HasForeign t) :
    ∃ c position, IsFirstForeign t c position ∧
      parseExpression t = .error (.unsupportedCharacter c position) := by
  obtain ⟨c, position, hfirst, hgate⟩ := checkCharacters_of_hasForeign h
  exact ⟨c, position, hfirst, by rw [parseExpression, hgate]⟩

/-- A single operation is an expression, so it has no foreign character. -/
theorem parseOperation_ne_ok {t : Text} (h : HasForeign t) (o : BinaryOperation) :
    parseOperation t ≠ .ok o := by
  intro hok
  obtain ⟨left, right, hsplit, -, hleft, -, hright⟩ := parseOperation_sound hok
  obtain ⟨c, position, -, herror⟩ := parseExpression_of_hasForeign h
  rw [parseExpression_of_splitOperation hsplit hleft hright] at herror
  cases herror

theorem exists_isAlpha_of_parseRootCall {t : Text} {argument : Literal}
    (h : parseRootCall t = .ok argument) : ∃ c ∈ t, c.isAlpha = true := by
  obtain ⟨rest, hword, -⟩ := exists_ok_of_bind_eq_ok h
  unfold expectWord at hword
  split at hword
  · next rest' hdrop =>
      obtain ⟨c, hmem, hc⟩ := exists_isAlpha_of_dropWord? (by decide) hdrop
      exact ⟨c, List.dropWhile_subset _ hmem, hc⟩
  · cases hword

/-- Arithmetic text is not refused by the gate. -/
theorem isUnsupported_of_parseExpression {t : Text} {cause : ExpressionError}
    (hne : ¬ AllWhiteSpace t) (hplain : ¬ HasForeign t)
    (h : parseExpression t = .error cause) : cause.isUnsupported = false := by
  rw [parseExpression, checkCharacters_eq_ok hne ((not_hasForeign_iff t).1 hplain)] at h
  dsimp only at h
  split at h
  · next syntaxError hsyntax =>
      cases h
      cases syntaxError <;> rfl
  · cases h

/-! ## Routes -/

/-- The route of a text that the patterns are tried on. -/
def routeOf (limits : Limits) (t : Text) : Route :=
  match explainText limits t Pattern.all with
  | .ok outcome => outcome.route
  | .error reason => .rejected reason

theorem routeOf_eq (limits : Limits) (t : Text) :
    routeOf limits t =
      match parseRootCall t with
      | .ok argument =>
          match readRadicand argument.text limits.maxRadicand with
          | .ok _ => .root
          | .error cause => .rejected (.invalidRadicand cause)
      | .error _ =>
          match parseOperation t with
          | .ok _ => .operation
          | .error _ =>
              match parseExpression t with
              | .ok _ => .expression
              | .error cause => .rejected (.ofExpression cause) := by
  rw [routeOf, explainText_all]
  cases parseRootCall t with
  | ok argument =>
      dsimp only
      cases readRadicand argument.text limits.maxRadicand <;> rfl
  | error _ =>
      dsimp only
      cases parseOperation t with
      | ok o => rfl
      | error _ =>
          dsimp only
          cases parseExpression t <;> rfl

/-- The gate refuses a text with a foreign character that is no root call. -/
theorem explainText_of_not_rootCall (limits : Limits) {t : Text} (h : HasForeign t)
    (hcall : ∀ argument, parseRootCall t ≠ .ok argument) :
    ∃ c position, IsFirstForeign t c position ∧ explainText limits t Pattern.all =
      .error (.unsupported (.unsupportedCharacter c position)) := by
  obtain ⟨c, position, hfirst, hgate⟩ := parseExpression_of_hasForeign h
  refine ⟨c, position, hfirst, ?_⟩
  cases hroot : parseRootCall t with
  | ok argument => exact absurd hroot (hcall argument)
  | error _ =>
      cases hoperation : parseOperation t with
      | ok o => exact absurd hoperation (parseOperation_ne_ok h o)
      | error _ =>
          rw [explainText_all, hroot, hoperation, hgate]
          rfl

theorem routeOf_of_not_rootCall (limits : Limits) {t : Text} (h : HasForeign t)
    (hcall : ∀ argument, parseRootCall t ≠ .ok argument) :
    ∃ c position, IsFirstForeign t c position ∧
      routeOf limits t = .rejected (.unsupported (.unsupportedCharacter c position)) := by
  obtain ⟨c, position, hfirst, hexplain⟩ := explainText_of_not_rootCall limits h hcall
  exact ⟨c, position, hfirst, by rw [routeOf, hexplain]⟩

/-- A text with a foreign character is a root call, or the gate refuses it. -/
theorem routeOf_of_hasForeign (limits : Limits) {t : Text} (h : HasForeign t) :
    routeOf limits t = .root ∨ (∃ cause, routeOf limits t = .rejected (.invalidRadicand cause)) ∨
      ∃ c position, IsFirstForeign t c position ∧
        routeOf limits t = .rejected (.unsupported (.unsupportedCharacter c position)) := by
  cases hcall : parseRootCall t with
  | ok argument =>
      rw [routeOf_eq, hcall]
      dsimp only
      cases readRadicand argument.text limits.maxRadicand with
      | ok n => exact .inl rfl
      | error cause => exact .inr (.inl ⟨cause, rfl⟩)
  | error mismatch =>
      refine .inr (.inr (routeOf_of_not_rootCall limits h ?_))
      rw [hcall]
      intro argument hok
      cases hok

/-- A text with a foreign character and no letter is no root call, so the gate refuses it. -/
theorem routeOf_of_symbolic (limits : Limits) {t : Text} (h : HasForeign t)
    (hletter : ∀ c ∈ t, c.isAlpha = false) :
    ∃ c position, IsFirstForeign t c position ∧
      routeOf limits t = .rejected (.unsupported (.unsupportedCharacter c position)) := by
  apply routeOf_of_not_rootCall limits h
  intro argument hcall
  obtain ⟨d, hmem, hd⟩ := exists_isAlpha_of_parseRootCall hcall
  rw [hletter d hmem] at hd
  cases hd

/-- Arithmetic text is an operation, an expression, or malformed. -/
theorem routeOf_of_arithmetic (limits : Limits) {t : Text} (hne : ¬ AllWhiteSpace t)
    (hplain : ¬ HasForeign t) :
    routeOf limits t = .operation ∨ routeOf limits t = .expression ∨
      ∃ cause, routeOf limits t = .rejected (.malformed cause) := by
  rw [routeOf_eq]
  cases hcall : parseRootCall t with
  | ok argument =>
      exact absurd (hasForeign_of_isAlpha (exists_isAlpha_of_parseRootCall hcall)) hplain
  | error _ =>
      dsimp only
      cases parseOperation t with
      | ok o => exact .inl rfl
      | error _ =>
          dsimp only
          cases hexpression : parseExpression t with
          | ok e => exact .inr (.inl rfl)
          | error cause =>
              have hcause := isUnsupported_of_parseExpression hne hplain hexpression
              exact .inr (.inr ⟨cause, by simp [Rejection.ofExpression, hcause]⟩)

/-- The expression pattern claims every text, so some pattern does. -/
theorem routeOf_ne_noPattern (limits : Limits) (t : Text) :
    routeOf limits t ≠ .rejected .noPattern := by
  rw [routeOf_eq]
  split
  · split <;> simp
  · split
    · simp
    · split
      · simp
      · rw [Rejection.ofExpression]
        split <;> simp

namespace Explainer

theorem explainMath_ne_noPattern (e : Explainer) (query : String) :
    e.explainMath query ≠ .error .noPattern := by
  intro h
  apply routeOf_ne_noPattern e.limits (canonical query.toList)
  rw [explainMath] at h
  rw [routeOf, h]

theorem route_run_of_mathCue? {e : Explainer} {query : String} {cue : Cue}
    (hlength : query.length ≤ e.limits.maxQueryChars) (hcue : mathCue? query.toList = some cue) :
    (e.run query).route = routeOf e.limits (canonical query.toList) := by
  rw [run_eq, if_neg (Nat.not_lt.2 hlength), hcue, if_pos Option.isSome_some, explainMath,
    routeOf]
  cases explainText e.limits (canonical query.toList) Pattern.all <;> rfl

/-- A query is rejected for its length, routed by its text, or general. -/
theorem route_run_cases (e : Explainer) (query : String) :
    (e.run query).route = .rejected (.queryTooLong e.limits.maxQueryChars) ∨
      (e.run query).route = routeOf e.limits (canonical query.toList) ∨
      (e.run query).route = .general := by
  by_cases hlength : query.length ≤ e.limits.maxQueryChars
  · cases hcue : mathCue? query.toList with
    | none =>
        right; right
        rw [run_eq, if_neg (Nat.not_lt.2 hlength), hcue]
        rfl
    | some cue => exact .inr (.inl (route_run_of_mathCue? hlength hcue))
  · left
    rw [run_eq, if_pos (Nat.not_le.1 hlength)]
    rfl

end Explainer

/-! ## The routes of a cue -/

/-- The routes that a cue, or the lack of one, leaves open for a canonical text. -/
def Allows (t : Text) : Option Cue → Route → Prop
  | none, route => route = .general
  | some .arithmetic, route =>
      route = .operation ∨ route = .expression ∨ ∃ cause, route = .rejected (.malformed cause)
  | some .symbolic, route =>
      ∃ c position, IsFirstForeign t c position ∧
        route = .rejected (.unsupported (.unsupportedCharacter c position))
  | some .rootCall, route | some .rootPhrase, route =>
      route = .root ∨ (∃ cause, route = .rejected (.invalidRadicand cause)) ∨
        ∃ c position, IsFirstForeign t c position ∧
          route = .rejected (.unsupported (.unsupportedCharacter c position))

theorem allows_route_run {e : Explainer} {query : String}
    (hlength : query.length ≤ e.limits.maxQueryChars) :
    Allows (canonical query.toList) (mathCue? query.toList) (e.run query).route := by
  cases hcue : mathCue? query.toList with
  | none =>
      have hlt : ¬ query.length > e.limits.maxQueryChars := Nat.not_lt.2 hlength
      simp [Allows, Explainer.run_eq, hlt, hcue]
  | some cue =>
      obtain ⟨hne, hmarks⟩ := marks_of_mathCue? hcue
      rw [Explainer.route_run_of_mathCue? hlength hcue]
      cases cue with
      | rootCall => exact routeOf_of_hasForeign e.limits (hasForeign_canonical hmarks)
      | rootPhrase => exact routeOf_of_hasForeign e.limits (hasForeign_canonical hmarks)
      | arithmetic =>
          rw [canonical_eq_trim_of_mathCue? (.inl hcue)]
          have hwhite : ¬ AllWhiteSpace (Text.trim query.toList) := by
            intro hwhite
            exact hne ((Text.trim_eq_nil_iff _).2 (Text.allWhiteSpace_of_trim hwhite))
          exact routeOf_of_arithmetic e.limits hwhite hmarks
      | symbolic =>
          rw [canonical_eq_trim_of_mathCue? (.inr hcue)]
          exact routeOf_of_symbolic e.limits hmarks.1 fun c hmem => (hmarks.2 c hmem).1

/-- The cue of a query leaves only some routes open. A text with a foreign character is never
read as an operation or an expression, and some pattern claims every text. -/
theorem cue_determines_route (e : Explainer) (query : String) :
    (query.length ≤ e.limits.maxQueryChars →
      Allows (canonical query.toList) (mathCue? query.toList) (e.run query).route) ∧
    (mathCue? query.toList = some .arithmetic ∨ mathCue? query.toList = some .symbolic →
      canonical query.toList = Text.trim query.toList) ∧
    (∀ t, HasForeign t → (∀ o, parseOperation t ≠ .ok o) ∧
      ∃ c position, IsFirstForeign t c position ∧
        checkCharacters t = .error (.unsupportedCharacter c position) ∧
        parseExpression t = .error (.unsupportedCharacter c position)) ∧
    (HasForeign (canonical query.toList) →
      (e.run query).route ≠ .operation ∧ (e.run query).route ≠ .expression ∧
        ∀ cause, (e.run query).route ≠ .rejected (.malformed cause)) ∧
    e.explainMath query ≠ .error .noPattern ∧ (e.run query).route ≠ .rejected .noPattern := by
  refine ⟨allows_route_run, canonical_eq_trim_of_mathCue?, ?_, ?_,
    e.explainMath_ne_noPattern query, ?_⟩
  · intro t h
    obtain ⟨c, position, hfirst, hgate⟩ := checkCharacters_of_hasForeign h
    exact ⟨parseOperation_ne_ok h, c, position, hfirst, hgate, by rw [parseExpression, hgate]⟩
  · intro h
    rcases e.route_run_cases query with hroute | hroute | hroute
    · simp [hroute]
    · rw [hroute]
      rcases routeOf_of_hasForeign e.limits h with h | ⟨cause, h⟩ | ⟨c, position, -, h⟩ <;>
        simp [h]
    · simp [hroute]
  · rcases e.route_run_cases query with hroute | hroute | hroute
    · simp [hroute]
    · rw [hroute]
      exact routeOf_ne_noPattern e.limits _
    · simp [hroute]

/-- A power has the symbolic cue, and its sign is the character that is refused. -/
theorem cue_determines_route_power :
    "2 ^ 3".length ≤ ({} : Explainer).limits.maxQueryChars ∧
      mathCue? "2 ^ 3".toList = some .symbolic ∧ HasForeign (canonical "2 ^ 3".toList) ∧
      (({} : Explainer).run "2 ^ 3").route =
        .rejected (.unsupported (.unsupportedCharacter '^' 2)) := by
  have hlength : "2 ^ 3".length ≤ ({} : Explainer).limits.maxQueryChars := by decide
  have hcue : mathCue? "2 ^ 3".toList = some .symbolic := by decide
  obtain ⟨hallows, htrim, -⟩ := cue_determines_route {} "2 ^ 3"
  have hallows := hallows hlength
  have htrim := htrim (.inr hcue)
  rw [hcue, htrim] at hallows
  obtain ⟨c, position, hfirst, hroute⟩ := hallows
  have hforeign := (firstForeign?_eq_some_iff _ c position).2 hfirst
  have hpower : firstForeign? (Text.trim "2 ^ 3".toList) = some ('^', 2) := by decide
  rw [hpower] at hforeign
  cases hforeign
  refine ⟨hlength, hcue, ?_, hroute⟩
  rw [htrim]
  exact ⟨'^', by decide, by decide⟩

end Stepwise
