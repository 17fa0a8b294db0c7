import Mathlib.Data.List.Basic
import Stepwise.Text.Join
import Stepwise.Text.Lines

set_option autoImplicit false

/-! # The lines of a text

The pieces of a text are all of it but the cuts (`flatten_splitOn`). A cut between two texts cuts
their pieces apart (`splitOn_append_cons`), so texts that are joined by line feeds and hold no line
end themselves are the lines of the joined text (`lines_joinWith`), and the lines in front of a line
feed do not depend on what stands behind it (`lines_append_feed`). The lines of any text have no
other characters than the text (`subset_of_mem_lines`).
-/

namespace Stepwise

namespace Text

variable {isCut : Char → Bool} {t : Text}

/-! ## Pieces -/

theorem splitOn_append_cons {c : Char} (hc : isCut c = true) (a b : Text) :
    splitOn isCut (a ++ c :: b) = splitOn isCut a ++ splitOn isCut b := by
  induction a with
  | nil => simp [splitOn, hc]
  | cons d a ih =>
      rw [List.cons_append, splitOn, splitOn, ih]
      split
      · rfl
      · cases ha : splitOn isCut a with
        | nil => exact absurd ha (splitOn_ne_nil isCut a)
        | cons piece pieces => rfl

/-- A text without the character that cuts is one piece. -/
theorem splitOn_eq_singleton {c : Char} (h : c ∉ t) : splitOn (· = c) t = [t] := by
  induction t with
  | nil => rfl
  | cons d t ih =>
      have hne : d ≠ c := fun heq => h (heq ▸ List.mem_cons_self)
      rw [splitOn, ih fun hmem => h (List.mem_cons_of_mem d hmem), if_neg (by simpa using hne)]

/-- Two texts that go on with the same character, which neither of them holds, are the same if the
whole texts are. -/
theorem eq_of_append_cut {c : Char} {a b s u : Text} (ha : c ∉ a) (hb : c ∉ b)
    (h : a ++ c :: s = b ++ c :: u) : a = b := by
  have hpieces := congrArg (splitOn (· = c)) h
  rw [splitOn_append_cons (decide_eq_true rfl), splitOn_append_cons (decide_eq_true rfl),
    splitOn_eq_singleton ha, splitOn_eq_singleton hb] at hpieces
  exact (List.cons.inj hpieces).1

/-- The pieces hold all of the text but the cuts. -/
theorem flatten_splitOn (isCut : Char → Bool) (t : Text) :
    (splitOn isCut t).flatten = t.filter fun c => !isCut c := by
  induction t with
  | nil => rfl
  | cons c t ih =>
      rw [splitOn]
      split
      · next hc =>
          rw [List.flatten_cons, List.nil_append, ih, List.filter_cons_of_neg (by simp [hc])]
      · next hc =>
          rw [List.filter_cons_of_pos (by simp [hc]), ← ih]
          cases hsplit : splitOn isCut t with
          | nil => exact absurd hsplit (splitOn_ne_nil isCut t)
          | cons piece pieces => rfl

theorem sublist_of_mem_splitOn {piece : Text} (h : piece ∈ splitOn isCut t) :
    List.Sublist piece (t.filter fun c => !isCut c) := by
  rw [← flatten_splitOn]
  exact List.sublist_flatten_of_mem h

theorem subset_of_mem_splitOn {piece : Text} (h : piece ∈ splitOn isCut t) : piece ⊆ t :=
  ((sublist_of_mem_splitOn h).trans List.filter_sublist).subset

/-- No piece holds a cut. -/
theorem isCut_of_mem_splitOn {piece : Text} (h : piece ∈ splitOn isCut t) {c : Char}
    (hc : c ∈ piece) : isCut c = false := by
  simpa using (List.mem_filter.1 ((sublist_of_mem_splitOn h).subset hc)).2

theorem not_mem_of_mem_splitOn {c : Char} {piece : Text} (h : piece ∈ splitOn (· = c) t) :
    c ∉ piece :=
  fun hc => of_decide_eq_false (isCut_of_mem_splitOn h hc) rfl

/-! ## Lines -/

theorem dropReturn_prefix (t : Text) : dropReturn t <+: t := by
  unfold dropReturn
  split
  · exact List.dropLast_prefix t
  · exact List.prefix_rfl

/-- A line has no other characters than the piece that it comes from. -/
theorem exists_piece_of_mem_linesOfPieces {pieces : List Text} {line : Text}
    (h : line ∈ linesOfPieces pieces) : ∃ piece ∈ pieces, line ⊆ piece := by
  induction pieces with
  | nil => cases h
  | cons piece rest ih =>
      cases rest with
      | nil =>
          rw [linesOfPieces] at h
          split at h
          · cases h
          · exact ⟨piece, List.mem_cons_self, by rw [List.mem_singleton.1 h]; exact fun _ => id⟩
      | cons next rest =>
          rw [linesOfPieces] at h
          rcases List.mem_cons.1 h with rfl | h
          · exact ⟨piece, List.mem_cons_self, List.IsPrefix.subset <| dropReturn_prefix piece⟩
          · obtain ⟨found, hfound, hsubset⟩ := ih h
            exact ⟨found, List.mem_cons_of_mem piece hfound, hsubset⟩

/-- A line of a text has no other characters than the text. -/
theorem subset_of_mem_lines {line : Text} (h : line ∈ lines t) : line ⊆ t := by
  obtain ⟨piece, hpiece, hsubset⟩ := exists_piece_of_mem_linesOfPieces h
  exact List.Subset.trans hsubset (subset_of_mem_splitOn hpiece)

/-- A line does not hold the end of a line. -/
theorem noFeed_of_mem_lines {line : Text} (h : line ∈ lines t) : '\n' ∉ line := by
  obtain ⟨piece, hpiece, hsubset⟩ := exists_piece_of_mem_linesOfPieces h
  exact fun hfeed => not_mem_of_mem_splitOn hpiece (hsubset hfeed)

/-- The lines of a text that a line end follows. -/
def closedLines (t : Text) : List Text := (splitOn (· = '\n') t).map dropReturn

theorem linesOfPieces_append {pieces rest : List Text} (h : rest ≠ []) :
    linesOfPieces (pieces ++ rest) = pieces.map dropReturn ++ linesOfPieces rest := by
  induction pieces with
  | nil => rfl
  | cons piece pieces ih =>
      obtain ⟨next, tail, heq⟩ :=
        List.exists_cons_of_ne_nil (List.append_ne_nil_of_right_ne_nil pieces h)
      rw [heq] at ih
      rw [List.cons_append, heq, linesOfPieces, ih, List.map_cons, List.cons_append]

theorem lines_append_feed (t rest : Text) :
    lines (t ++ '\n' :: rest) = closedLines t ++ lines rest := by
  rw [lines, splitOn_append_cons (by decide), linesOfPieces_append (splitOn_ne_nil _ rest)]
  rfl

/-- The text ends with the end of a line, if it is not empty: what follows it starts a new line. -/
def IsClosed (t : Text) : Prop := ∀ rest, lines (t ++ rest) = lines t ++ lines rest

theorem isClosed_nil : IsClosed [] := fun _ => rfl

theorem isClosed_feed (t : Text) : IsClosed (t ++ ['\n']) := by
  intro rest
  rw [List.append_assoc, List.singleton_append, lines_append_feed, lines_append_feed,
    List.append_assoc]
  rfl

theorem IsClosed.append {a b : Text} (ha : IsClosed a) (hb : IsClosed b) : IsClosed (a ++ b) := by
  intro rest
  rw [List.append_assoc, ha, hb, ha, List.append_assoc]

theorem closedLines_eq_singleton (h : '\n' ∉ t) : closedLines t = [dropReturn t] := by
  rw [closedLines, splitOn_eq_singleton h, List.map_singleton]

theorem subset_of_mem_closedLines {line : Text} (h : line ∈ closedLines t) : line ⊆ t := by
  obtain ⟨piece, hpiece, rfl⟩ := List.mem_map.1 h
  exact List.Subset.trans (List.IsPrefix.subset <| dropReturn_prefix piece)
    (subset_of_mem_splitOn hpiece)

/-- A text that is not empty and holds no line end. -/
structure IsLine (t : Text) : Prop where
  nonempty : t ≠ []
  noFeed : '\n' ∉ t
  noReturn : '\r' ∉ t

theorem dropReturn_eq_self (h : '\r' ∉ t) : dropReturn t = t :=
  if_neg fun hlast => h (List.mem_of_getLast? hlast)

theorem IsLine.closedLines_eq (h : IsLine t) : closedLines t = [t] := by
  rw [closedLines_eq_singleton h.noFeed, dropReturn_eq_self h.noReturn]

theorem linesOfPieces_eq_self {pieces : List Text} (h : ∀ piece ∈ pieces, IsLine piece) :
    linesOfPieces pieces = pieces := by
  induction pieces with
  | nil => rfl
  | cons piece rest ih =>
      have hpiece := h piece List.mem_cons_self
      cases rest with
      | nil => rw [linesOfPieces, if_neg hpiece.nonempty]
      | cons next rest =>
          rw [linesOfPieces, dropReturn_eq_self hpiece.noReturn,
            ih fun other hother => h other (List.mem_cons_of_mem _ hother)]

theorem splitOn_joinWith {first : String} {rest : List String}
    (h : ∀ piece ∈ first :: rest, '\n' ∉ piece.toList) :
    splitOn (· = '\n') (joinWith "\n" (first :: rest)).toList =
      (first :: rest).map String.toList := by
  have hfirst : splitOn (· = '\n') first.toList = [first.toList] :=
    splitOn_eq_singleton (h first List.mem_cons_self)
  induction rest generalizing first with
  | nil => exact hfirst
  | cons next rest ih =>
      have hrest := fun piece hpiece => h piece (List.mem_cons_of_mem first hpiece)
      have hnext : splitOn (· = '\n') next.toList = [next.toList] :=
        splitOn_eq_singleton (hrest next List.mem_cons_self)
      rw [joinWith_cons_cons, String.toList_append, String.toList_append,
        show "\n".toList = ['\n'] from rfl, List.append_assoc, List.singleton_append,
        splitOn_append_cons (by decide), hfirst, ih hrest hnext]
      rfl

/-- Texts that are joined by line feeds are the lines of the joined text. -/
theorem lines_joinWith {pieces : List String} (h : ∀ piece ∈ pieces, IsLine piece.toList) :
    lines (joinWith "\n" pieces).toList = pieces.map String.toList := by
  cases pieces with
  | nil => rfl
  | cons first rest =>
      rw [lines, splitOn_joinWith fun piece hpiece => (h piece hpiece).noFeed]
      refine linesOfPieces_eq_self fun line hline => ?_
      obtain ⟨piece, hpiece, rfl⟩ := List.mem_map.1 hline
      exact h piece hpiece

/-- A line and texts that are joined by line feeds behind it. -/
theorem lines_heading_joinWith {heading : String} {pieces : List String}
    (hheading : IsLine heading.toList) (hne : pieces ≠ [])
    (hpieces : ∀ piece ∈ pieces, IsLine piece.toList) :
    lines (heading ++ "\n" ++ joinWith "\n" pieces).toList =
      heading.toList :: pieces.map String.toList := by
  obtain ⟨first, rest, rfl⟩ := List.exists_cons_of_ne_nil hne
  rw [← joinWith_cons_cons]
  exact lines_joinWith (List.forall_mem_cons.2 ⟨hheading, hpieces⟩)

theorem lines_eq_singleton (h : IsLine t) : lines t = [t] := by
  rw [lines, splitOn_eq_singleton h.noFeed, linesOfPieces, if_neg h.nonempty]

end Text

end Stepwise
