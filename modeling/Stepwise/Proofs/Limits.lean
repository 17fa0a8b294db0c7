import Stepwise.Explainer

set_option autoImplicit false

/-! # Larger limits

Limits only forbid. They are asked for twice on the way from a query to its explanation: for the
length of the query, and for the size of a radicand. A query that passes both under some limits
passes them under larger ones too, and nothing else of what becomes of it depends on the limits. So
what limits do to a query is told pattern by pattern (`Pattern.OnlyForbids`): with larger limits a
pattern makes the same of a text, unless it had refused the text for a limit.
-/

namespace Stepwise

/-- Limits are larger if both bounds are. -/
instance : LE Limits where
  le limits limits' :=
    limits.maxRadicand ≤ limits'.maxRadicand ∧ limits.maxQueryChars ≤ limits'.maxQueryChars

/-- The rejection is for a limit: of the length of a query, or of the size of a radicand. -/
inductive Rejection.IsByLimit : Rejection → Prop
  | queryTooLong (limit : Nat) : IsByLimit (.queryTooLong limit)
  | tooLarge (text : Text) (max : UInt64) : IsByLimit (.invalidRadicand (.tooLarge text max))

/-! ## Radicands -/

/-- The limit is asked for last, when the text has no fraction and no sign left to refuse. -/
theorem readRadicand_of_le {max max' : UInt64} (h : max ≤ max') (text : Text) :
    readRadicand text max' = readRadicand text max ∨
      readRadicand text max = .error (.tooLarge text max) := by
  have hle : max.toNat ≤ max'.toNat := UInt64.le_iff_toNat_le.1 h
  unfold readRadicand
  split
  -- with and without a sign, the same tests come before the limit
  all_goals
    dsimp only
    split
    · exact .inl rfl
    · split
      · exact .inl rfl
      · split
        · next value _ =>
            by_cases hvalue : value ≤ max.toNat
            · left
              rw [if_pos hvalue, if_pos (Nat.le_trans hvalue hle)]
            · right
              rw [if_neg hvalue]
        · exact .inr rfl

/-! ## Patterns -/

namespace Pattern

/-- With larger limits the pattern makes the same of a text, unless it refuses the text for a
limit. -/
def OnlyForbids (pattern : Pattern Id) : Prop :=
  ∀ {limits limits' : Limits}, limits ≤ limits' → ∀ t,
    pattern.explain? limits' t = pattern.explain? limits t ∨
      ∃ reason, pattern.explain? limits t = some (.error reason) ∧ reason.IsByLimit

theorem onlyForbids_root : root.OnlyForbids := by
  intro limits limits' hle t
  unfold root rootM
  dsimp only
  split
  · exact .inl rfl
  · next argument _ =>
      rcases readRadicand_of_le hle.1 argument.text with hsame | hlarge
      · left
        rw [hsame]
      · right
        rw [hlarge]
        exact ⟨_, rfl, .tooLarge _ _⟩

theorem onlyForbids_operation : operation.OnlyForbids := fun _ _ => .inl rfl

theorem onlyForbids_expression : expression.OnlyForbids := fun _ _ => .inl rfl

theorem onlyForbids_of_mem_all {pattern : Pattern Id} (h : pattern ∈ all) :
    pattern.OnlyForbids := by
  simp only [all_eq, List.mem_cons, List.not_mem_nil, or_false] at h
  rcases h with rfl | rfl | rfl
  · exact onlyForbids_root
  · exact onlyForbids_operation
  · exact onlyForbids_expression

end Pattern

/-- A text that no limit refuses is claimed by the same pattern, with the same answer. -/
theorem explainText_of_le {limits limits' : Limits} (hle : limits ≤ limits') (t : Text)
    {patterns : List (Pattern Id)} (hpatterns : ∀ pattern ∈ patterns, pattern.OnlyForbids) :
    explainText limits' t patterns = explainText limits t patterns ∨
      ∃ reason, explainText limits t patterns = .error reason ∧ reason.IsByLimit := by
  induction patterns with
  | nil => exact .inl rfl
  | cons pattern patterns ih =>
      obtain ⟨hpattern, hpatterns⟩ := List.forall_mem_cons.1 hpatterns
      rcases hpattern hle t with hsame | ⟨reason, hrefused, hlimit⟩
      · rw [explainText_cons, explainText_cons, hsame]
        split
        · exact ih hpatterns
        · exact .inl rfl
        · exact .inl rfl
      · right
        rw [explainText_cons, hrefused]
        exact ⟨reason, rfl, hlimit⟩

/-! ## Queries -/

namespace Explainer

/-- With larger limits a query has the same outcome, unless it is rejected for a limit. -/
theorem run_of_le {e : Explainer} {limits : Limits} {query : String} (hle : e.limits ≤ limits)
    (hfree : ∀ reason, (e.run query).route = .rejected reason → ¬ reason.IsByLimit) :
    ({ e with limits } : Explainer).run query = e.run query := by
  by_cases hlength : query.length ≤ e.limits.maxQueryChars
  · rw [run_eq e] at hfree ⊢
    rw [run_eq]
    rw [if_neg (Nat.not_lt.2 hlength)] at hfree ⊢
    rw [if_neg (Nat.not_lt.2 (Nat.le_trans hlength hle.2))]
    split
    · next hcue =>
        rw [if_pos hcue] at hfree
        unfold explainMath at hfree ⊢
        rcases explainText_of_le hle (canonical query.toList)
          (fun _ => Pattern.onlyForbids_of_mem_all) with hsame | ⟨reason, hrefused, hlimit⟩
        · rw [hsame]
        · rw [hrefused] at hfree
          exact absurd hlimit (hfree reason rfl)
    · rfl
  · have hreject : e.run query = reject (.queryTooLong e.limits.maxQueryChars) :=
      if_pos (Nat.not_le.1 hlength)
    rw [hreject] at hfree
    exact absurd (.queryTooLong _) (hfree _ rfl)

/-- A root at both limits, the radicand as large and the query as long as they allow. -/
theorem run_of_le_at_limits :
    (⟨49, 8⟩ : Limits) ≤ {} ∧
      (({ limits := ⟨49, 8⟩ } : Explainer).run "sqrt(49)").route = .root ∧
      ({} : Explainer).run "sqrt(49)" = ({ limits := ⟨49, 8⟩ } : Explainer).run "sqrt(49)" := by
  have hle : (⟨49, 8⟩ : Limits) ≤ {} := ⟨by decide, by decide⟩
  have hroute : (({ limits := ⟨49, 8⟩ } : Explainer).run "sqrt(49)").route = .root := by
    decide +kernel
  have hfree : ∀ reason, (({ limits := ⟨49, 8⟩ } : Explainer).run "sqrt(49)").route =
      .rejected reason → ¬ reason.IsByLimit := by
    intro reason hreason
    rw [hroute] at hreason
    cases hreason
  exact ⟨hle, hroute, @run_of_le { limits := ⟨49, 8⟩ } {} _ hle hfree⟩

end Explainer

end Stepwise
