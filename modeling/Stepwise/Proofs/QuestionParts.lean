import Stepwise.Explain.Topic
import Stepwise.Proofs.RootTexts

set_option autoImplicit false

/-! # The parts of a question

The outline of a question loses no part of it. What stands between the punctuation marks is all of
the question but the marks, and trimming the pieces and leaving out the empty ones takes away
nothing but white space (`arePartsOf_questionParts`). The outline lists the parts with their numbers
(`ListsParts`). Behind a number stands a colon, and no part holds a colon, so the parts can be read
off the list again, in one way only (`ListsParts.unique`).
-/

namespace Stepwise

/-! ## Parts -/

/-- A character that is neither white space nor one of the marks at which a question is cut. -/
def isContent (c : Char) : Bool := !isWhiteSpace c && c ∉ [':', ';', '.', '?', '!']

/-- The text can be a part: it is not empty, it is trimmed, and no mark is in it. -/
structure IsPart (part : Text) : Prop where
  nonempty : part ≠ []
  trimmed : Text.IsTrimmed part
  unmarked : ∀ c ∈ part, c ∉ [':', ';', '.', '?', '!']

/-- The texts are parts, and but for white space and marks they are together the question. -/
structure ArePartsOf (parts : List Text) (question : Text) : Prop where
  isPart : ∀ part ∈ parts, IsPart part
  complete : (parts.flatten.filter fun c => !isWhiteSpace c) = question.filter isContent

theorem isContent_of_isWhiteSpace {c : Char} (h : isWhiteSpace c = true) : isContent c = false := by
  simp [isContent, h]

theorem isContent_eq (c : Char) : isContent c = (!isWhiteSpace c && !endsPart c) := by
  simp [isContent, endsPart]

theorem IsPart.colon_not_mem {part : Text} (h : IsPart part) : ':' ∉ part :=
  fun hcolon => h.unmarked ':' hcolon List.mem_cons_self

theorem IsPart.exists_visible {part : Text} (h : IsPart part) :
    ∃ c ∈ part, isWhiteSpace c = false := by
  obtain ⟨c, rest, rfl⟩ := List.exists_cons_of_ne_nil h.nonempty
  exact ⟨c, List.mem_cons_self, h.trimmed.head c rfl⟩

/-- A question has no parts exactly if there is nothing in it but white space and marks. -/
theorem ArePartsOf.eq_nil_iff {parts : List Text} {question : Text}
    (h : ArePartsOf parts question) :
    parts = [] ↔ ∀ c ∈ question, isContent c = false := by
  have hcontent : (∀ c ∈ question, isContent c = false) ↔ question.filter isContent = [] := by
    simp [List.filter_eq_nil_iff]
  rw [hcontent, ← h.complete]
  constructor
  · rintro rfl
    rfl
  · intro hnone
    cases parts with
    | nil => rfl
    | cons part rest =>
        obtain ⟨c, hc, hvisible⟩ := (h.isPart part List.mem_cons_self).exists_visible
        have hmem : c ∈ (part :: rest).flatten := List.mem_flatten_of_mem List.mem_cons_self hc
        have hwhite := List.filter_eq_nil_iff.1 hnone c hmem
        simp [hvisible] at hwhite

/-! ## Cutting and trimming -/

/-- All of the question but the white space and the marks is in its parts. -/
theorem filter_flatten_questionParts (question : Text) :
    ((questionParts question).flatten.filter fun c => !isWhiteSpace c) =
      question.filter isContent := by
  have htrim : ∀ piece : Text, ((Text.trim piece).filter fun c => !isWhiteSpace c) =
      piece.filter fun c => !isWhiteSpace c :=
    Text.filter_trim fun c hc => by simp [hc]
  calc ((questionParts question).flatten.filter fun c => !isWhiteSpace c)
      = (((Text.splitOn endsPart question).map Text.trim).flatten.filter
          fun c => !isWhiteSpace c) := by
        rw [questionParts, List.flatten_filter_ne_nil]
    _ = ((Text.splitOn endsPart question).map
          fun piece => piece.filter fun c => !isWhiteSpace c).flatten := by
        rw [List.filter_flatten, List.map_map]
        congr 1
        exact List.map_congr_left fun piece _ => htrim piece
    _ = ((question.filter fun c => !endsPart c).filter fun c => !isWhiteSpace c) := by
        rw [← List.filter_flatten, Text.flatten_splitOn]
    _ = question.filter isContent := by
        rw [List.filter_filter]
        exact List.filter_congr fun c _ => (isContent_eq c).symm

theorem isPart_of_mem_questionParts {question part : Text} (h : part ∈ questionParts question) :
    IsPart part := by
  obtain ⟨hmem, hnonempty⟩ := List.mem_filter.1 h
  obtain ⟨piece, hpiece, rfl⟩ := List.mem_map.1 hmem
  refine ⟨of_decide_eq_true hnonempty, Text.isTrimmed_trim piece, fun c hc => ?_⟩
  have hunmarked : endsPart c = false :=
    Text.isCut_of_mem_splitOn hpiece ((Text.trim_infix piece).subset hc)
  exact of_decide_eq_false hunmarked

/-- Trimming the whole question before it is cut takes no part away. -/
theorem arePartsOf_questionParts (question : Text) :
    ArePartsOf (questionParts (Text.trim question)) question where
  isPart _ h := isPart_of_mem_questionParts h
  complete := (filter_flatten_questionParts _).trans
    (Text.filter_trim (fun _ => isContent_of_isWhiteSpace) question)

/-! ## Numbers -/

/-- What stands in front of a part. -/
def partLabel (number : Nat) : Text := ("Part " ++ toString number ++ ": ").toList

/-- The text is the list of the parts, numbered one after another, with a line end between each two
of them. -/
inductive ListsParts : Nat → List Text → Text → Prop
  | last (number : Nat) (part : Text) : ListsParts number [part] (partLabel number ++ part)
  | more {number : Nat} {parts : List Text} {text : Text} (part : Text)
      (h : ListsParts (number + 1) parts text) :
      ListsParts number (part :: parts) (partLabel number ++ (part ++ '\n' :: text))

theorem toList_partLine (number : Nat) (part : Text) :
    (partLine number part).toList = partLabel number ++ part := by
  rw [partLine, String.toList_append, String.toList_ofList]
  rfl

theorem listsParts_partLines {parts : List Text} (hne : parts ≠ []) (number : Nat) :
    ListsParts number parts (joinWith "\n" (partLines number parts)).toList := by
  induction parts generalizing number with
  | nil => exact absurd rfl hne
  | cons part rest ih =>
      cases rest with
      | nil =>
          rw [partLines, partLines, joinWith, toList_partLine]
          exact .last number part
      | cons next rest =>
          have htext : (joinWith "\n" (partLines number (part :: next :: rest))).toList =
              partLabel number ++
                (part ++ '\n' ::
                  (joinWith "\n" (partLines (number + 1) (next :: rest))).toList) := by
            rw [partLines, partLines, joinWith_cons_cons, String.toList_append,
              String.toList_append, toList_partLine, List.append_assoc, List.append_assoc]
            rfl
          rw [htext]
          exact .more part (ih (List.cons_ne_nil next rest) (number + 1))

/-! ## Reading the list -/

/-- The colon of a label is the first one in it. -/
theorem exists_partLabel_eq (number : Nat) :
    ∃ heading : Text, ':' ∉ heading ∧ partLabel number = heading ++ [':', ' '] := by
  refine ⟨"Part ".toList ++ Nat.toDigits 10 number, ?_, ?_⟩
  · simp [not_mem_toDigits (show ':'.isDigit = false by decide) number]
  · rw [partLabel, String.toList_append, String.toList_append, toList_toString]
    rfl

namespace ListsParts

variable {number : Nat} {parts others : List Text} {text : Text}

theorem exists_eq_append (h : ListsParts number parts text) :
    ∃ rest, text = partLabel number ++ rest := by
  cases h with
  | last _ part => exact ⟨part, rfl⟩
  | more part _ => exact ⟨_, rfl⟩

theorem colon_mem (h : ListsParts number parts text) : ':' ∈ text := by
  obtain ⟨rest, rfl⟩ := h.exists_eq_append
  obtain ⟨heading, -, hlabel⟩ := exists_partLabel_eq number
  simp [hlabel]

theorem ne_nil (h : ListsParts number parts text) : parts ≠ [] := by
  cases h with
  | last _ part => exact List.cons_ne_nil part []
  | more part _ => exact List.cons_ne_nil part _

/-- The list behind a part starts with a label, so its colon is the first one behind the part. -/
theorem first_unique {text' part other : Text} (h : ListsParts number parts text)
    (h' : ListsParts number others text') (hpart : ':' ∉ part) (hother : ':' ∉ other)
    (heq : part ++ '\n' :: text = other ++ '\n' :: text') : part = other := by
  obtain ⟨rest, rfl⟩ := h.exists_eq_append
  obtain ⟨rest', rfl⟩ := h'.exists_eq_append
  obtain ⟨heading, hheading, hlabel⟩ := exists_partLabel_eq number
  have hcut : (part ++ '\n' :: heading) ++ ':' :: ' ' :: rest =
      (other ++ '\n' :: heading) ++ ':' :: ' ' :: rest' := by
    simpa [hlabel] using heq
  have hfirst : part ++ '\n' :: heading = other ++ '\n' :: heading :=
    Text.eq_of_append_cut (by simp [hpart, hheading]) (by simp [hother, hheading]) hcut
  exact List.append_cancel_right hfirst

/-- Parts without colons can be read off their list in one way only. -/
theorem unique (h : ListsParts number parts text) (h' : ListsParts number others text)
    (hparts : ∀ part ∈ parts, ':' ∉ part) (hothers : ∀ other ∈ others, ':' ∉ other) :
    parts = others := by
  induction h generalizing others with
  | last number part =>
      generalize htext : partLabel number ++ part = text at h'
      cases h' with
      | last _ other => rw [List.append_cancel_left htext]
      | more other hrest =>
          -- the label of a second part would stand within this one
          have hpart := List.append_cancel_left htext
          refine absurd ?_ (hparts part List.mem_cons_self)
          simp [hpart, hrest.colon_mem]
  | @more number parts text part hrest ih =>
      generalize htext : partLabel number ++ (part ++ '\n' :: text) = text' at h'
      cases h' with
      | last _ other =>
          have hother := List.append_cancel_left htext
          refine absurd ?_ (hothers other List.mem_cons_self)
          simp [← hother, hrest.colon_mem]
      | @more _ others tail other hrest' =>
          have hbehind := List.append_cancel_left htext
          obtain ⟨hpart, hparts⟩ := List.forall_mem_cons.1 hparts
          obtain ⟨hother, hothers⟩ := List.forall_mem_cons.1 hothers
          have hfirst : part = other := hrest.first_unique hrest' hpart hother hbehind
          rw [hfirst] at hbehind
          have htail : text = tail := (List.cons.inj (List.append_cancel_left hbehind)).2
          rw [hfirst, ih (htail ▸ hrest') hparts hothers]

end ListsParts

/-! ## The section of the outline -/

/-- The text shows the parts: it lists them with numbers from one on, and it says so if there are
none. -/
def ShowsParts (text : String) (parts : List Text) : Prop :=
  (parts = [] ∧ text = "Single-part question.") ∨ ListsParts 1 parts text.toList

theorem showsParts_breakdown (question : Text) :
    ShowsParts (breakdown question) (questionParts question) := by
  rw [breakdown]
  split
  · next hnil => exact .inl ⟨hnil, rfl⟩
  · next hne => exact .inr (listsParts_partLines hne 1)

namespace ShowsParts

variable {text : String} {parts others : List Text}

theorem eq_single_iff (h : ShowsParts text parts) :
    text = "Single-part question." ↔ parts = [] := by
  rcases h with ⟨hnil, htext⟩ | hlists
  · simp [hnil, htext]
  · have hne : text ≠ "Single-part question." := by
      rintro rfl
      exact absurd hlists.colon_mem (by decide)
    simp [hne, hlists.ne_nil]

theorem unique (h : ShowsParts text parts) (h' : ShowsParts text others)
    (hparts : ∀ part ∈ parts, IsPart part) (hothers : ∀ other ∈ others, IsPart other) :
    others = parts := by
  by_cases hsingle : text = "Single-part question."
  · rw [h.eq_single_iff.1 hsingle, h'.eq_single_iff.1 hsingle]
  · have hlists : ListsParts 1 parts text.toList := h.resolve_left fun hnone => hsingle hnone.2
    have hlists' : ListsParts 1 others text.toList := h'.resolve_left fun hnone => hsingle hnone.2
    exact hlists'.unique hlists (fun other hother => (hothers other hother).colon_not_mem)
      fun part hpart => (hparts part hpart).colon_not_mem

end ShowsParts

/-- The outline of a question shows its parts, which can be read off the text again, and it says
that there is a single part exactly if there is nothing in the question but white space and
marks. -/
theorem outlineTopic_showsParts (query : String) :
    ∃ detail parts, (outlineTopic query).detailsOf "Break it into parts" = [some detail] ∧
      ShowsParts detail parts ∧ ArePartsOf parts query.toList ∧
      (∀ others, ShowsParts detail others → (∀ other ∈ others, IsPart other) → others = parts) ∧
      (detail = "Single-part question." ↔ ∀ c ∈ query.toList, isContent c = false) := by
  have hparts := arePartsOf_questionParts query.toList
  have hshows := showsParts_breakdown (Text.trim query.toList)
  refine ⟨breakdown (Text.trim query.toList), questionParts (Text.trim query.toList), ?_, hshows,
    hparts, ?_, ?_⟩
  · simp [Trace.detailsOf, outlineTopic]
  · intro others hothers hisPart
    exact hshows.unique hothers hparts.isPart hisPart
  · rw [hshows.eq_single_iff, hparts.eq_nil_iff]

/-- A question with marks next to each other, and with white space of two kinds around its parts. -/
theorem outlineTopic_showsParts_marks :
    ∃ parts, ShowsParts "Part 1: Why\nPart 2: Is it\nPart 3: so" parts ∧
      ArePartsOf parts " Why?! Is it: so\u00a0.;".toList ∧
      parts = ["Why".toList, "Is it".toList, "so".toList] := by
  obtain ⟨detail, parts, hdetail, hshows, hparts, hunique, -⟩ :=
    outlineTopic_showsParts " Why?! Is it: so\u00a0.;"
  have hcomputed : (outlineTopic " Why?! Is it: so\u00a0.;").detailsOf "Break it into parts" =
      [some "Part 1: Why\nPart 2: Is it\nPart 3: so"] := by decide +kernel
  have htext : detail = "Part 1: Why\nPart 2: Is it\nPart 3: so" := by
    rw [hcomputed] at hdetail
    exact (Option.some.inj (List.cons.inj hdetail).1).symm
  subst htext
  have hlists : ListsParts 1 ["Why".toList, "Is it".toList, "so".toList]
      "Part 1: Why\nPart 2: Is it\nPart 3: so".toList :=
    .more _ (.more _ (.last 3 _))
  have hquestion : questionParts (Text.trim " Why?! Is it: so\u00a0.;".toList) =
      ["Why".toList, "Is it".toList, "so".toList] := by decide +kernel
  have hisPart : ∀ part ∈ ["Why".toList, "Is it".toList, "so".toList], IsPart part :=
    fun part hpart => isPart_of_mem_questionParts (hquestion ▸ hpart)
  exact ⟨parts, hshows, hparts, (hunique _ (.inr hlists) hisPart).symm⟩

end Stepwise
