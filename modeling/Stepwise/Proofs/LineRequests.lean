import Stepwise.Dialogue
import Stepwise.Proofs.Numerals

set_option autoImplicit false

/-! # Which lines are commands

The commands of a dialogue as a list of shapes (`IsCommand`): five words that stand alone, and
`show` before a number. A line asks for what its trimmed text is a command for, and every text that
is no command is a query (`ofLine_eq_iff`).
-/

namespace Stepwise

/-! ## Numbers of entries -/

/-- The text of a machine word: one digit or more, perhaps after a plus sign. -/
def IsEntryNumber (t : Text) (n : Nat) : Prop :=
  ∃ digits, digits ≠ [] ∧ AllDigits digits ∧ (t = digits ∨ t = '+' :: digits) ∧
    Nat.ofDigitChars 10 digits 0 = n ∧ n < 2 ^ 64

theorem entryNumber?_eq_some_iff {t : Text} {n : Nat} :
    entryNumber? t = some n ↔ IsEntryNumber t n := by
  have hlimit (m : Nat) : m ≤ maxEntryNumber ↔ m < 2 ^ 64 := by
    rw [maxEntryNumber]
    omega
  constructor
  · intro h
    unfold entryNumber? at h
    split at h
    · next m hread =>
        split at h
        · next hm =>
            cases h
            obtain ⟨digits, hne, hdigits, ht, hvalue⟩ := readNat?_eq_some_iff.1 hread
            exact ⟨digits, hne, hdigits, ht, hvalue, (hlimit n).1 hm⟩
        · cases h
    · cases h
  · rintro ⟨digits, hne, hdigits, ht, hvalue, hn⟩
    have hread := readNat?_eq_some_iff.2 ⟨digits, hne, hdigits, ht, hvalue⟩
    rw [entryNumber?, hread]
    exact if_pos ((hlimit n).2 hn)

theorem IsEntryNumber.isTrimmed {t : Text} {n : Nat} (h : IsEntryNumber t n) :
    Text.IsTrimmed t := by
  obtain ⟨digits, -, hdigits, ht, -⟩ := h
  have hwhite : ∀ c ∈ digits, isWhiteSpace c = false :=
    fun c hc => not_isWhiteSpace_of_isDigit (hdigits c hc)
  rcases ht with rfl | rfl
  · exact isTrimmed_of_forall hwhite
  · exact isTrimmed_of_forall (List.forall_mem_cons.2 ⟨by decide, hwhite⟩)

theorem IsEntryNumber.ne_nil {t : Text} {n : Nat} (h : IsEntryNumber t n) : t ≠ [] := by
  obtain ⟨digits, hne, -, rfl | rfl, -⟩ := h
  · exact hne
  · exact List.cons_ne_nil _ _

/-! ## Commands -/

/-- A text that is a command, with what it asks for. -/
inductive IsCommand : Text → LineRequest → Prop
  | quit : IsCommand "quit".toList .quit
  | exit : IsCommand "exit".toList .quit
  | help : IsCommand "help".toList .help
  | history : IsCommand "history".toList .history
  | clear : IsCommand "clear".toList .clear
  | showEntry {gap number : Text} {n : Nat} (hne : gap ≠ []) (hgap : AllWhiteSpace gap)
      (hnumber : IsEntryNumber number n) :
      IsCommand ("show".toList ++ gap ++ number) (.showEntry n)

/-- What a trimmed text asks for: a text that is no command is a query. -/
def Asks (t : Text) (request : LineRequest) : Prop :=
  IsCommand t request ∨ (∀ other, ¬ IsCommand t other) ∧ request = .query t

/-- No white space stands at the end of a trimmed text. -/
theorem Text.IsTrimmed.eq_nil_of_append {t after : Text} (h : Text.IsTrimmed (t ++ after))
    (hafter : AllWhiteSpace after) : after = [] := by
  rcases List.eq_nil_or_concat' after with hnil | ⟨init, d, rfl⟩
  · exact hnil
  · have hd := hafter d (List.mem_append_right _ List.mem_cons_self)
    rw [h.last d (by rw [← List.append_assoc]; exact List.getLast?_concat)] at hd
    cases hd

/-- Behind its first word, a trimmed text has white space and then its trimmed rest. -/
theorem Text.IsTrimmed.exists_gap {t : Text} (h : Text.IsTrimmed t) :
    ∃ gap, AllWhiteSpace gap ∧
      t.dropWhile (fun c => !isWhiteSpace c) =
        gap ++ Text.trim (t.dropWhile fun c => !isWhiteSpace c) ∧
      (t.dropWhile (fun c => !isWhiteSpace c) ≠ [] → gap ≠ []) := by
  generalize hrest : (t.dropWhile fun c => !isWhiteSpace c) = rest
  obtain ⟨gap, after, hgap, hafter, hsplit⟩ := Text.exists_trim rest
  have htext : t.takeWhile (fun c => !isWhiteSpace c) ++ rest = t := by
    rw [← hrest, List.takeWhile_append_dropWhile]
  -- the text ends as its rest does, so no white space stands behind the rest
  rw [← htext, hsplit, ← List.append_assoc] at h
  obtain rfl := h.eq_nil_of_append hafter
  rw [List.append_nil] at hsplit
  refine ⟨gap, hgap, hsplit, fun hne hnil => ?_⟩
  -- what is left behind the first word starts with white space
  subst hnil
  rw [List.nil_append] at hsplit
  obtain ⟨c, tail, hcons⟩ := List.exists_cons_of_ne_nil hne
  have hhead := (Text.isTrimmed_trim rest).head c (by rw [← hsplit, hcons]; rfl)
  have hdrop := List.head?_dropWhile_not (fun c => !isWhiteSpace c) t
  rw [hrest, hcons] at hdrop
  simp [hhead] at hdrop

/-- A trimmed text is its first word and nothing else if its rest is white space. -/
theorem Text.IsTrimmed.eq_word {t : Text} (h : Text.IsTrimmed t)
    (hnil : Text.trim (t.dropWhile fun c => !isWhiteSpace c) = []) {word : String}
    (hword : String.ofList (t.takeWhile fun c => !isWhiteSpace c) = word) : t = word.toList := by
  obtain ⟨gap, hgap, hrest, -⟩ := h.exists_gap
  rw [hnil, List.append_nil] at hrest
  have htext : t.takeWhile (fun c => !isWhiteSpace c) ++ gap = t := by
    rw [← hrest, List.takeWhile_append_dropWhile]
  rw [← htext] at h
  rw [h.eq_nil_of_append hgap, List.append_nil] at htext
  rw [← hword, String.toList_ofList, htext]

/-- A line asks for a command that it is, or else it is a query. -/
theorem isCommand_or_eq_query (input : Text) :
    IsCommand (Text.trim input) (.ofLine input) ∨
      LineRequest.ofLine input = .query (Text.trim input) := by
  have htrimmed := Text.isTrimmed_trim input
  unfold LineRequest.ofLine
  generalize Text.trim input = t at htrimmed ⊢
  dsimp only
  split
  · next h =>
      obtain ⟨hnil, hword | hword⟩ := h
      · exact .inl (htrimmed.eq_word hnil hword ▸ .quit)
      · exact .inl (htrimmed.eq_word hnil hword ▸ .exit)
  · split
    · next h => exact .inl (htrimmed.eq_word h.1 h.2 ▸ .help)
    · split
      · next h => exact .inl (htrimmed.eq_word h.1 h.2 ▸ .history)
      · split
        · next h => exact .inl (htrimmed.eq_word h.1 h.2 ▸ .clear)
        · split
          · next hword =>
              split
              · next n hnumber =>
                  have hnumber := entryNumber?_eq_some_iff.1 hnumber
                  obtain ⟨gap, hgap, hrest, hne⟩ := htrimmed.exists_gap
                  have hgapne : gap ≠ [] := by
                    refine hne fun hnil => hnumber.ne_nil ?_
                    rw [hnil]
                    rfl
                  have ht : t = "show".toList ++ gap ++
                      Text.trim (t.dropWhile fun c => !isWhiteSpace c) := by
                    rw [List.append_assoc, ← hrest, ← hword, String.toList_ofList,
                      List.takeWhile_append_dropWhile]
                  refine .inl ?_
                  rw [ht]
                  exact .showEntry hgapne hgap hnumber
              · exact .inr rfl
          · exact .inr rfl

theorem ofLine_of_isCommand {input : Text} {request : LineRequest}
    (h : IsCommand (Text.trim input) request) : LineRequest.ofLine input = request := by
  unfold LineRequest.ofLine
  generalize Text.trim input = t at h ⊢
  cases h with
  | quit | exit | help | history | clear => rfl
  | @showEntry gap number n hne hgap hnumber =>
      have hshow : ∀ c ∈ "show".toList, (!isWhiteSpace c) = true := List.all_eq_true.1 rfl
      have hword : ("show".toList ++ gap ++ number).takeWhile (fun c => !isWhiteSpace c) =
          "show".toList := by
        rw [List.append_assoc, List.takeWhile_append_of_pos hshow]
        obtain ⟨c, rest, rfl⟩ := List.exists_cons_of_ne_nil hne
        simp [hgap c List.mem_cons_self]
      have hrest : ("show".toList ++ gap ++ number).dropWhile (fun c => !isWhiteSpace c) =
          gap ++ number := by
        rw [List.append_assoc, List.dropWhile_append_of_pos hshow]
        obtain ⟨c, rest, rfl⟩ := List.exists_cons_of_ne_nil hne
        simp [hgap c List.mem_cons_self]
      have htrim : Text.trim (gap ++ number) = number := by
        simpa using Text.trim_append hgap (fun _ hc => absurd hc List.not_mem_nil)
          hnumber.isTrimmed
      dsimp only
      rw [hword, hrest, htrim, if_neg fun h => hnumber.ne_nil h.1,
        if_neg fun h => hnumber.ne_nil h.1, if_neg fun h => hnumber.ne_nil h.1,
        if_neg fun h => hnumber.ne_nil h.1, if_pos String.ofList_toList,
        entryNumber?_eq_some_iff.2 hnumber]

/-- What a line asks for is what its trimmed text asks for. -/
theorem ofLine_eq_iff {input : Text} {request : LineRequest} :
    LineRequest.ofLine input = request ↔ Asks (Text.trim input) request := by
  constructor
  · rintro rfl
    by_cases hcommand : ∃ other, IsCommand (Text.trim input) other
    · obtain ⟨other, hother⟩ := hcommand
      exact .inl (ofLine_of_isCommand hother ▸ hother)
    · have hnone := not_exists.1 hcommand
      exact .inr ⟨hnone, (isCommand_or_eq_query input).resolve_left (hnone _)⟩
  · rintro (hcommand | ⟨hnone, rfl⟩)
    · exact ofLine_of_isCommand hcommand
    · exact (isCommand_or_eq_query input).resolve_left (hnone _)

end Stepwise
