import Stepwise.Proofs.Phrasing
import Stepwise.Query.RootCall

set_option autoImplicit false

/-! # What the cues see

The tests behind the cues of a root, and the recognizer of root calls, as statements on how a
text is made up: words in any letter case, with gaps of blanks between them. The gaps of a root
call may all be empty, and its parenthesis has to be closed.
-/

namespace Stepwise

/-! ## Words in front -/

/-- Texts that start with two words at the same place start with the same letters. -/
theorem IsWord.append_eq {word word' t t' rest rest' : Text} (h : IsWord word t)
    (h' : IsWord word' t') (heq : t ++ rest = t' ++ rest') :
    word ++ rest.map Char.toLower = word' ++ rest'.map Char.toLower := by
  rw [← h, ← h', ← List.map_append, ← List.map_append, heq]

theorem startsRootCall_iff {t : Text} :
    startsRootCall t = true ↔ ∃ word gap rest, IsWord sqrtWord word ∧ AllBlank gap ∧
      t = word ++ (gap ++ '(' :: rest) := by
  unfold startsRootCall
  constructor
  · intro h
    split at h
    · next rest hdrop =>
        obtain ⟨word, hword, rfl⟩ := dropWord?_eq_some_iff.1 hdrop
        obtain ⟨tail, hhead⟩ := List.head?_eq_some_iff.1 (of_decide_eq_true h)
        obtain ⟨gap, hgap, rfl⟩ := (skipBlanks_eq_cons_iff (by decide)).1 hhead
        exact ⟨word, gap, tail, hword, hgap, rfl⟩
    · cases h
  · rintro ⟨word, gap, rest, hword, hgap, rfl⟩
    have hskip := (skipBlanks_eq_cons_iff (by decide)).2 ⟨gap, hgap, (rfl : _ = gap ++ '(' :: rest)⟩
    rw [hword.dropWord?]
    simp [hskip]

theorem startsSquareRoot_iff {t : Text} :
    startsSquareRoot t = true ↔ ∃ square gap root rest, IsWord squareWord square ∧
      AllBlank gap ∧ IsWord rootWord root ∧ t = square ++ (gap ++ (root ++ rest)) := by
  unfold startsSquareRoot
  constructor
  · intro h
    split at h
    · next rest hdrop =>
        obtain ⟨square, hsquare, rfl⟩ := dropWord?_eq_some_iff.1 hdrop
        obtain ⟨tail, htail⟩ := Option.isSome_iff_exists.1 h
        obtain ⟨gap, root, hgap, hroot, rfl⟩ :=
          (dropWord?_skipBlanks_eq_some_iff (by decide)).1 htail
        exact ⟨square, gap, root, tail, hsquare, hgap, hroot, rfl⟩
    · cases h
  · rintro ⟨square, gap, root, rest, hsquare, hgap, hroot, rfl⟩
    rw [hsquare.dropWord?]
    exact Option.isSome_of_eq_some ((dropWord?_skipBlanks_eq_some_iff (by decide)).2
      ⟨gap, root, hgap, hroot, rfl⟩)

theorem startsRootWord_iff {t : Text} :
    startsRootWord t = true ↔ ∃ root c rest, IsWord rootWord root ∧ isBlank c = true ∧
      t = root ++ c :: rest := by
  unfold startsRootWord
  constructor
  · intro h
    split at h
    · next c rest hdrop =>
        obtain ⟨root, hroot, rfl⟩ := dropWord?_eq_some_iff.1 hdrop
        exact ⟨root, c, rest, hroot, h, rfl⟩
    · cases h
  · rintro ⟨root, c, rest, hroot, hc, rfl⟩
    rw [hroot.dropWord?]
    exact hc

theorem somewhere_iff {test : Text → Bool} {t : Text} :
    somewhere test t = true ↔ ∃ before u, u ≠ [] ∧ t = before ++ u ∧ test u = true := by
  induction t with
  | nil =>
      constructor
      · intro h
        cases h
      · rintro ⟨before, u, hne, ht, -⟩
        exact absurd (List.append_eq_nil_iff.1 ht.symm).2 hne
  | cons c t ih =>
      rw [somewhere, Bool.or_eq_true, ih]
      constructor
      · rintro (h | ⟨before, u, hne, rfl, h⟩)
        · exact ⟨[], c :: t, List.cons_ne_nil c t, rfl, h⟩
        · exact ⟨c :: before, u, hne, rfl, h⟩
      · rintro ⟨before, u, hne, ht, h⟩
        cases before with
        | nil => exact .inl (by rw [ht]; exact h)
        | cons d before =>
            cases ht
            exact .inr ⟨before, u, hne, rfl, h⟩

/-! ## Root calls -/

/-- A root call with blanks in its gaps. -/
inductive CallText (argument : Literal) : Text → Prop
  | intro {word gap inner inner' : Text} (hword : IsWord sqrtWord word) (hgap : AllBlank gap)
      (hinner : AllBlank inner) (hargument : argument.IsDecimal) (hinner' : AllBlank inner') :
      CallText argument
        (word ++ (gap ++ '(' :: (inner ++ (argument.text ++ (inner' ++ [')'])))))

theorem expectChar_skipBlanks_eq_ok_iff {c : Char} (hc : isBlank c = false) {t rest : Text} :
    expectChar c (Text.skipBlanks t) = .ok rest ↔
      ∃ gap, AllBlank gap ∧ t = gap ++ c :: rest := by
  rw [← skipBlanks_eq_cons_iff hc]
  constructor
  · exact expectChar_sound
  · intro h
    rw [h, expectChar, if_pos rfl]

theorem expectWord_skipBlanks_eq_ok_iff {w : Char} (hw : w.isAlpha = true)
    {word t rest : Text} :
    expectWord (w :: word) (Text.skipBlanks t) = .ok rest ↔
      ∃ gap spelling, AllBlank gap ∧ IsWord (w :: word) spelling ∧
        t = gap ++ (spelling ++ rest) := by
  rw [← dropWord?_skipBlanks_eq_some_iff hw]
  unfold expectWord
  cases dropWord? (w :: word) (Text.skipBlanks t) <;> simp

/-- The recognizer of root calls takes the root calls with blanks around them. -/
theorem parseRootCall_eq_ok_iff {t : Text} {argument : Literal} :
    parseRootCall t = .ok argument ↔ ∃ before call after, AllBlank before ∧
      CallText argument call ∧ AllBlank after ∧ t = before ++ (call ++ after) := by
  constructor
  · intro h
    unfold parseRootCall at h
    obtain ⟨t₁, hdrop, h⟩ := exists_ok_of_bind_eq_ok h
    obtain ⟨t₂, hopen, h⟩ := exists_ok_of_bind_eq_ok h
    obtain ⟨⟨argument', t₃⟩, hscan, h⟩ := exists_ok_of_bind_eq_ok h
    obtain ⟨t₄, hclose, h⟩ := exists_ok_of_bind_eq_ok h
    obtain ⟨⟨⟩, hend, h⟩ := exists_ok_of_bind_eq_ok h
    cases h
    obtain ⟨before, word, hbefore, hword, rfl⟩ :=
      (expectWord_skipBlanks_eq_ok_iff (by decide)).1 hdrop
    obtain ⟨gap, hgap, rfl⟩ := (expectChar_skipBlanks_eq_ok_iff (by decide)).1 hopen
    obtain ⟨inner, hinner, hdecimal, -, rfl⟩ := scanSigned_skipBlanks_eq_ok_iff.1 hscan
    obtain ⟨inner', hinner', rfl⟩ := (expectChar_skipBlanks_eq_ok_iff (by decide)).1 hclose
    have hafter : AllBlank t₄ := (Text.skipBlanks_eq_nil_iff t₄).1 (expectEnd_sound hend)
    exact ⟨before, _, t₄, hbefore, .intro hword hgap hinner hdecimal hinner', hafter, by simp⟩
  · rintro ⟨before, _, after, hbefore, hcall, hafter, rfl⟩
    obtain @⟨_, _, _, inner', hword, hgap, hinner, hdecimal, hinner'⟩ := hcall
    simp only [List.append_assoc, List.cons_append, List.nil_append]
    unfold parseRootCall
    have hends : argument.EndsBefore (inner' ++ ')' :: after) :=
      (argument.endsBefore_cons (by decide) (by decide) after).gap hinner'
    rw [sqrtWord, (expectWord_skipBlanks_eq_ok_iff (by decide)).2 ⟨_, _, hbefore, hword, rfl⟩]
    show (expectChar '(' _ >>= _) = _
    rw [(expectChar_skipBlanks_eq_ok_iff (by decide)).2 ⟨_, hgap, rfl⟩]
    show (scanSigned _ >>= _) = _
    rw [scanSigned_skipBlanks_eq_ok_iff.2 ⟨_, hinner, hdecimal, hends, rfl⟩]
    show (expectChar ')' _ >>= _) = _
    rw [(expectChar_skipBlanks_eq_ok_iff (by decide)).2 ⟨_, hinner', rfl⟩]
    show (expectEnd _ >>= _) = _
    rw [(Text.skipBlanks_eq_nil_iff after).2 hafter]
    rfl

/-! ## The cue of a root -/

/-- A call that is closed at the end of the text, a radical sign, the words "square root", or
the word "root" in front of a blank. -/
inductive HasRootCue : Text → Prop
  | call {word gap body : Text} (hword : IsWord sqrtWord word) (hgap : AllBlank gap) :
      HasRootCue (word ++ (gap ++ '(' :: (body ++ [')'])))
  | radical {t : Text} (h : '√' ∈ t) : HasRootCue t
  | squareRoot {before square gap root after : Text} (hsquare : IsWord squareWord square)
      (hgap : AllBlank gap) (hroot : IsWord rootWord root) :
      HasRootCue (before ++ (square ++ (gap ++ (root ++ after))))
  | rootWord {root : Text} {c : Char} {after : Text} (hroot : IsWord rootWord root)
      (hc : isBlank c = true) : HasRootCue (root ++ c :: after)

theorem hasRootCue_iff {t : Text} :
    HasRootCue t ↔ (startsRootCall t && t.getLast? = some ')') = true ∨
      (t.contains '√' || somewhere startsSquareRoot t || startsRootWord t) = true := by
  simp only [Bool.and_eq_true, Bool.or_eq_true, decide_eq_true_eq, somewhere_iff,
    startsRootCall_iff, startsSquareRoot_iff, startsRootWord_iff, List.contains_iff_mem]
  constructor
  · rintro (@⟨word, gap, body, hword, hgap⟩ | h | ⟨hsquare, hgap, hroot⟩ | ⟨hroot, hc⟩)
    · have hsplit : word ++ (gap ++ '(' :: (body ++ [')'])) =
          word ++ (gap ++ '(' :: body) ++ [')'] := by simp
      exact .inl ⟨⟨_, _, _, hword, hgap, rfl⟩, by rw [hsplit, List.getLast?_concat]⟩
    · exact .inr (.inl (.inl h))
    · refine .inr (.inl (.inr ⟨_, _, ?_, rfl, _, _, _, _, hsquare, hgap, hroot, rfl⟩))
      rintro hnil
      rw [(List.append_eq_nil_iff.1 hnil).1] at hsquare
      cases hsquare
    · exact .inr (.inr ⟨_, _, _, hroot, hc, rfl⟩)
  · rintro (⟨⟨word, gap, rest, hword, hgap, rfl⟩, hlast⟩ | (h | ⟨before, _, -, rfl, square, gap,
      root, after, hsquare, hgap, hroot, rfl⟩) | ⟨root, c, after, hroot, hc, rfl⟩)
    · -- the parenthesis at the end is not the one that opens the call
      obtain ⟨body, rfl⟩ : ∃ body, rest = body ++ [')'] := by
        rcases List.eq_nil_or_concat' rest with rfl | ⟨body, d, rfl⟩
        · rw [← List.append_assoc, List.getLast?_concat] at hlast
          cases hlast
        · have hsplit : word ++ (gap ++ '(' :: (body ++ [d])) =
              word ++ (gap ++ '(' :: body) ++ [d] := by simp
          rw [hsplit, List.getLast?_concat] at hlast
          cases hlast
          exact ⟨body, rfl⟩
      exact .call hword hgap
    · exact .radical h
    · exact .squareRoot hsquare hgap hroot
    · exact .rootWord hroot hc

/-- A query has no cue exactly when, trimmed, it has no cue of a root, is no arithmetic text, and
has a letter or no digit. -/
theorem mathCue?_eq_none_iff {query : Text} :
    mathCue? query = none ↔ ¬ HasRootCue (Text.trim query) ∧
      isArithmeticText (Text.trim query) = false ∧
      ((Text.trim query).any Char.isDigit && !(Text.trim query).any isAlphabetic) = false := by
  rw [hasRootCue_iff, mathCue?]
  generalize Text.trim query = t
  split
  · next hnil =>
      subst hnil
      simp only [true_iff]
      decide
  next hne =>
    split
    · next hcall => exact ⟨nofun, fun h => absurd (.inl hcall) h.1⟩
    next hcall =>
      split
      · next hphrase => exact ⟨nofun, fun h => absurd (.inr hphrase) h.1⟩
      next hphrase =>
        split
        · next harithmetic => simp [harithmetic]
        next harithmetic =>
          split
          · next hsymbolic => simp only [hsymbolic, Bool.true_eq_false, and_false, reduceCtorEq]
          · next hsymbolic =>
              refine ⟨fun _ => ⟨?_, eq_false_of_ne_true harithmetic,
                eq_false_of_ne_true hsymbolic⟩, fun _ => rfl⟩
              rintro (h | h)
              · exact hcall h
              · exact hphrase h

end Stepwise
