import Stepwise.Proofs.HistoryLog
import Stepwise.Proofs.LineRequests

set_option autoImplicit false

/-! # A dialogue as a list of past replies

A dialogue is determined by its settings and by the replies that it gave to queries since the last
`clear`: the history holds the newest of them, and `show` prints them again. The list of past
replies is taken from the lines and the replies alone (`pastReplies`). One line keeps a dialogue in
step with it (`InStep.next`), so any number of lines does (`inStep_afterLines`).
-/

namespace Stepwise

/-- The text of the query, if the request is one. -/
def LineRequest.query? : LineRequest → Option Text
  | .query text => some text
  | _ => none

/-- The trace that explains a query under the settings. -/
def Settings.explain (s : Settings) (text : Text) : Trace :=
  (Explainer.run { limits := s.limits } (String.ofList text)).trace

namespace Dialogue

/-! ## Runs -/

/-- The dialogue after some lines. -/
def afterLines (d : Dialogue) (lines : List Text) : Dialogue :=
  lines.foldl (fun d input => (d.handleLine input).2) d

/-- The lines, each with the reply to it. -/
def exchanges (d : Dialogue) : List Text → List (Text × Reply)
  | [] => []
  | input :: rest => (input, (d.handleLine input).1) :: (d.handleLine input).2.exchanges rest

theorem afterLines_concat (d : Dialogue) (lines : List Text) (input : Text) :
    d.afterLines (lines ++ [input]) = ((d.afterLines lines).handleLine input).2 := by
  simp [afterLines]

theorem exchanges_concat (d : Dialogue) (lines : List Text) (input : Text) :
    d.exchanges (lines ++ [input]) =
      d.exchanges lines ++ [(input, ((d.afterLines lines).handleLine input).1)] := by
  induction lines generalizing d with
  | nil => rfl
  | cons first rest ih =>
      rw [List.cons_append, exchanges, ih]
      rfl

/-- The queries since the last line that clears, newest first, with the replies to them. -/
def pastReplies (exchanges : List (Text × Reply)) : List (Text × Reply) :=
  newestSince (fun e => LineRequest.ofLine e.1 = .clear)
    (fun e => (LineRequest.ofLine e.1).query?.map (·, e.2)) exchanges

theorem pastReplies_concat (exchanges : List (Text × Reply)) (input : Text) (reply : Reply) :
    pastReplies (exchanges ++ [(input, reply)]) =
      if LineRequest.ofLine input = .clear then []
      else ((LineRequest.ofLine input).query?.map (·, reply)).toList ++ pastReplies exchanges := by
  rw [pastReplies, newestSince_concat]
  simp only [decide_eq_true_eq]
  rfl

/-! ## Dialogues and their past replies -/

/-- The dialogue has given these replies to queries, newest first, since it was cleared. -/
structure InStep (s : Settings) (d : Dialogue) (past : List (Text × Reply)) : Prop where
  explainer : d.session.explainer = { limits := s.limits }
  showDetails : d.showDetails = s.showDetails
  entries : d.session.history.entries =
    (past.map fun e => .ofTrace (String.ofList e.1) (s.explain e.1)).take History.capacity
  replies : ∀ e ∈ past, e.2 = .output ((s.explain e.1).render s.showDetails)

section

variable {s : Settings} {d : Dialogue} {past : List (Text × Reply)} {input : Text}

/-- The reply to a query is its explanation, whatever has been said before. -/
theorem InStep.reply_query (h : InStep s d past) {text : Text}
    (hrequest : LineRequest.ofLine input = .query text) :
    (d.handleLine input).1 = .output ((s.explain text).render s.showDetails) := by
  rw [handleLine, hrequest]
  show Reply.output (((d.session.explainer.run _).trace).render d.showDetails) = _
  rw [h.explainer, h.showDetails]
  rfl

/-- A line that neither asks a query nor clears leaves the dialogue as it is. -/
theorem handleLine_eq_self (hquery : (LineRequest.ofLine input).query? = none)
    (hclear : LineRequest.ofLine input ≠ .clear) : (d.handleLine input).2 = d := by
  rw [handleLine]
  cases hrequest : LineRequest.ofLine input with
  | quit | help | history | showEntry => rfl
  | clear => exact absurd hrequest hclear
  | query text =>
      rw [hrequest] at hquery
      cases hquery

theorem InStep.next (h : InStep s d past) :
    InStep s (d.handleLine input).2
      (if LineRequest.ofLine input = .clear then []
      else ((LineRequest.ofLine input).query?.map (·, (d.handleLine input).1)).toList ++ past) := by
  cases hrequest : LineRequest.ofLine input with
  | clear =>
      have hnext : (d.handleLine input).2 = { d with session := d.session.clear } := by
        rw [handleLine, hrequest]
        rfl
      rw [if_pos rfl, hnext]
      exact ⟨h.explainer, h.showDetails, rfl, List.forall_mem_nil _⟩
  | query text =>
      have hnext : (d.handleLine input).2 =
          { d with session := (d.session.run (String.ofList text)).2 } := by
        rw [handleLine, hrequest]
        rfl
      rw [if_neg (by simp), h.reply_query hrequest, hnext]
      refine ⟨h.explainer, h.showDetails, ?_, ?_⟩
      · show (d.session.history.record _ (d.session.explainer.run _).trace).entries = _
        rw [h.explainer]
        exact History.entries_record _ _ h.entries
      · exact List.forall_mem_cons.2 ⟨rfl, h.replies⟩
  | quit | help | history | showEntry =>
      rw [if_neg (by simp), handleLine_eq_self (by rw [hrequest]; rfl) (by simp [hrequest])]
      exact h

end

theorem inStep_afterLines (s : Settings) (lines : List Text) :
    InStep s ((ofSettings s).afterLines lines) (pastReplies ((ofSettings s).exchanges lines)) := by
  induction lines using List.reverseRecOn with
  | nil => exact ⟨rfl, rfl, rfl, List.forall_mem_nil _⟩
  | append_singleton lines input ih =>
      rw [afterLines_concat, exchanges_concat, pastReplies_concat]
      exact ih.next

/-! ## What a dialogue says -/

/-- The dialogue holds these replies to queries, newest first, and no others, and it answers every
further line from them, from the line and from the settings. -/
structure Recalls (s : Settings) (d : Dialogue) (held : List (Text × Reply)) : Prop where
  history : d.session.history.entries = held.map fun e =>
    { query := String.ofList e.1, title := (s.explain e.1).title, steps := (s.explain e.1).steps }
  query : ∀ input text, LineRequest.ofLine input = .query text →
    (d.handleLine input).1 = .output ((s.explain text).render s.showDetails)
  shown : ∀ input number, LineRequest.ofLine input = .showEntry number →
    1 ≤ number → number ≤ held.length →
      held[number - 1]?.map Prod.snd = some (d.handleLine input).1
  missing : ∀ input number, LineRequest.ofLine input = .showEntry number →
    ¬ (1 ≤ number ∧ number ≤ held.length) →
      (d.handleLine input).1 = .output ("No history entry " ++ toString number ++ ".\n")
  unchanged : ∀ input, (LineRequest.ofLine input).query? = none →
    LineRequest.ofLine input ≠ .clear → (d.handleLine input).2 = d
  quit : ∀ input, (d.handleLine input).1 = .quit ↔ LineRequest.ofLine input = .quit

section

variable {s : Settings} {d : Dialogue} {past : List (Text × Reply)} {input : Text}

/-- An entry of the history is shown as the explanation of its query. -/
theorem InStep.select_eq (h : InStep s d past) (index : Nat) :
    d.session.select index = (past.take 10)[index]?.map fun e => s.explain e.1 := by
  rw [Session.select, History.select, History.get?, h.entries, ← List.map_take, List.getElem?_map,
    Option.map_map]
  rfl

theorem InStep.reply_showEntry (h : InStep s d past) {number : Nat}
    (hrequest : LineRequest.ofLine input = .showEntry number) (hpos : 1 ≤ number)
    (hle : number ≤ (past.take 10).length) :
    (past.take 10)[number - 1]?.map Prod.snd = some (d.handleLine input).1 := by
  have hlt : number - 1 < (past.take 10).length := by omega
  have hreply := h.replies _ (List.mem_of_mem_take (List.getElem_mem hlt))
  rw [List.getElem?_eq_getElem hlt, Option.map_some, hreply, handleLine, hrequest]
  show _ = some (Reply.output (d.showEntry number))
  rw [showEntry, if_neg (by omega), h.select_eq, List.getElem?_eq_getElem hlt, h.showDetails]
  rfl

theorem InStep.reply_missing (h : InStep s d past) {number : Nat}
    (hrequest : LineRequest.ofLine input = .showEntry number)
    (hmissing : ¬ (1 ≤ number ∧ number ≤ (past.take 10).length)) :
    (d.handleLine input).1 = .output ("No history entry " ++ toString number ++ ".\n") := by
  have hnone : (if number = 0 then none else d.session.select (number - 1)) = none := by
    split
    · rfl
    · rw [h.select_eq, List.getElem?_eq_none (by omega), Option.map_none]
  rw [handleLine, hrequest]
  show Reply.output (d.showEntry number) = _
  rw [showEntry, hnone]
  show Reply.output (line _) = _
  rw [line, String.append_assoc, show "." ++ "\n" = ".\n" from rfl]

theorem handleLine_eq_quit_iff :
    (d.handleLine input).1 = .quit ↔ LineRequest.ofLine input = .quit := by
  rw [handleLine]
  cases LineRequest.ofLine input <;> simp [answer]

end

/-- Which lines are commands is told by their shapes. After any lines, a dialogue holds the newest
ten of the replies that it gave to queries since it was last cleared, and answers from them. -/
theorem recalls_afterLines (s : Settings) (lines : List Text) :
    (∀ input request, LineRequest.ofLine input = request ↔ Asks (Text.trim input) request) ∧
    Recalls s ((ofSettings s).afterLines lines)
      ((pastReplies ((ofSettings s).exchanges lines)).take 10) := by
  have h := inStep_afterLines s lines
  refine ⟨fun input request => ofLine_eq_iff, ?_⟩
  refine ⟨?_, fun _ _ => h.reply_query, fun _ _ => h.reply_showEntry, fun _ _ => h.reply_missing,
    fun _ => handleLine_eq_self, fun _ => handleLine_eq_quit_iff⟩
  rw [h.entries, ← List.map_take]
  rfl

/-- A query and a question, the first of which is then shown again. -/
theorem recalls_afterLines_second :
    LineRequest.ofLine " show +2 ".toList = .showEntry 2 ∧
    (((ofSettings {}).afterLines ["12 * 3".toList, "show me gravity".toList]).handleLine
      " show +2 ".toList).1 = ((ofSettings {}).handleLine "12 * 3".toList).1 := by
  obtain ⟨hasks, hrecalls⟩ :=
    recalls_afterLines {} ["12 * 3".toList, "show me gravity".toList]
  have hcommand : IsCommand ("show".toList ++ [' '] ++ ['+', '2']) (.showEntry 2) :=
    .showEntry (by decide) (by decide) ⟨['2'], by decide, by decide, .inr rfl, rfl, by decide⟩
  have hrequest : LineRequest.ofLine " show +2 ".toList = .showEntry 2 :=
    (hasks _ _).2 (.inl hcommand)
  have hshown := hrecalls.shown _ 2 hrequest (by decide) (by decide +kernel)
  exact ⟨hrequest, (Option.some.inj hshown).symm⟩

end Dialogue

end Stepwise
