import Stepwise.Proofs.Replacement

set_option autoImplicit false

/-! # What the canonical form keeps

Each rule of the canonical form applies only at a radical sign or at a letter of its first word,
and what it writes is a root call, which has letters. So a text without radical signs and
letters is not changed, and a text with a character that is not arithmetic still has such a
character afterwards: no phrasing of a root turns into plain arithmetic.
-/

namespace Stepwise

/-! ## Foreign characters -/

/-- A text with a character that is not arithmetic. -/
def HasForeign (t : Text) : Prop := ∃ c ∈ t, isArithmeticChar c = false

theorem not_hasForeign_iff (t : Text) :
    ¬ HasForeign t ↔ ∀ c ∈ t, isArithmeticChar c = true := by
  simp [HasForeign]

theorem HasForeign.append_left {t : Text} (h : HasForeign t) (u : Text) :
    HasForeign (t ++ u) := by
  obtain ⟨c, hmem, hc⟩ := h
  exact ⟨c, List.mem_append_left u hmem, hc⟩

theorem hasForeign_cons_iff (c : Char) (t : Text) :
    HasForeign (c :: t) ↔ isArithmeticChar c = false ∨ HasForeign t := by
  simp [HasForeign]

/-- A foreign character with only arithmetic characters before it, and the number of them. -/
def IsFirstForeign (t : Text) (c : Char) (position : Nat) : Prop :=
  ∃ before after, t = before ++ c :: after ∧ before.length = position ∧
    (∀ d ∈ before, isArithmeticChar d = true) ∧ isArithmeticChar c = false

theorem firstForeign?_eq_some_iff (t : Text) (c : Char) (position : Nat) :
    firstForeign? t = some (c, position) ↔ IsFirstForeign t c position := by
  induction t generalizing position with
  | nil => simp [firstForeign?, IsFirstForeign]
  | cons d rest ih =>
      rw [firstForeign?]
      constructor
      · intro h
        split at h
        · next hd =>
            obtain ⟨⟨c', k⟩, hfound, hc⟩ := Option.map_eq_some_iff.1 h
            cases hc
            obtain ⟨before, after, rfl, rfl, hbefore, hforeign⟩ := (ih k).1 hfound
            exact ⟨d :: before, after, rfl, rfl, by simpa [hd] using hbefore, hforeign⟩
        · next hd =>
            cases h
            exact ⟨[], rest, rfl, rfl, by simp, by simpa using hd⟩
      · rintro ⟨before, after, hsplit, rfl, hbefore, hforeign⟩
        cases before with
        | nil =>
            cases hsplit
            simp [hforeign]
        | cons d' before =>
            obtain ⟨rfl, rfl⟩ := List.cons.inj hsplit
            have hd : isArithmeticChar d = true := hbefore d List.mem_cons_self
            have hrest := (ih before.length).2 ⟨before, after, rfl, rfl,
              fun d hmem => hbefore d (List.mem_cons_of_mem _ hmem), hforeign⟩
            rw [if_pos hd, hrest]
            rfl

/-! ## Letters -/

theorem isAlpha_iff (c : Char) :
    c.isAlpha = true ↔ (65 ≤ c.toNat ∧ c.toNat ≤ 90) ∨ (97 ≤ c.toNat ∧ c.toNat ≤ 122) := by
  show (decide (c.val ≥ 'A'.val ∧ c.val ≤ 'Z'.val) ||
    (decide (c.val ≥ 'a'.val) && decide (c.val ≤ 'z'.val))) = true ↔ _
  simp only [Bool.or_eq_true, Bool.and_eq_true, decide_eq_true_eq, ge_iff_le,
    UInt32.le_iff_toNat_le]
  rfl

/-- Only capital letters have another lower case. -/
theorem toLower_of_not_isUpper {c : Char} (h : ¬ (65 ≤ c.toNat ∧ c.toNat ≤ 90)) :
    c.toLower = c :=
  dif_neg fun hupper : c.val ≥ 'A'.val ∧ c.val ≤ 'Z'.val =>
    h ⟨UInt32.le_iff_toNat_le.1 hupper.1, UInt32.le_iff_toNat_le.1 hupper.2⟩

theorem toLower_of_not_isAlpha {c : Char} (h : c.isAlpha = false) : c.toLower = c :=
  toLower_of_not_isUpper fun hupper => by
    rw [(isAlpha_iff c).2 (.inl hupper)] at h
    cases h

/-- The lower case of a letter lies between `a` and `z`. -/
theorem toNat_toLower {c : Char} (h : c.isAlpha = true) :
    97 ≤ c.toLower.toNat ∧ c.toLower.toNat ≤ 122 := by
  unfold Char.toLower
  split
  · next hupper =>
      have hlow : 65 ≤ c.toNat := UInt32.le_iff_toNat_le.1 hupper.1
      have hhigh : c.toNat ≤ 90 := UInt32.le_iff_toNat_le.1 hupper.2
      have hshift : (c.val + 32).toNat = c.toNat + 32 := by
        rw [UInt32.toNat_add, Nat.mod_eq_of_lt (by change c.toNat + 32 < _; omega)]
        rfl
      change 97 ≤ (c.val + 32).toNat ∧ (c.val + 32).toNat ≤ 122
      omega
  · next hupper =>
      refine ((isAlpha_iff c).1 h).resolve_left fun hrange => hupper ?_
      exact ⟨UInt32.le_iff_toNat_le.2 hrange.1, UInt32.le_iff_toNat_le.2 hrange.2⟩

/-- The lower case of a letter is a letter. -/
theorem isAlpha_toLower (c : Char) : c.toLower.isAlpha = c.isAlpha := by
  cases halpha : c.isAlpha with
  | false => rw [toLower_of_not_isAlpha halpha, halpha]
  | true => exact (isAlpha_iff _).2 (.inr (toNat_toLower halpha))

theorem toLower_toLower (c : Char) : c.toLower.toLower = c.toLower := by
  cases halpha : c.isAlpha with
  | false => rw [toLower_of_not_isAlpha halpha, toLower_of_not_isAlpha halpha]
  | true =>
      have hlower := toNat_toLower halpha
      exact toLower_of_not_isUpper (by omega)

theorem toLower_eq_iff {c d : Char} (hd : d.isAlpha = false) : c.toLower = d ↔ c = d := by
  constructor
  · rintro rfl
    rw [isAlpha_toLower] at hd
    exact (toLower_of_not_isAlpha hd).symm
  · rintro rfl
    exact toLower_of_not_isAlpha hd

theorem not_isAlpha_of_isArithmeticChar {c : Char} (h : isArithmeticChar c = true) :
    c.isAlpha = false := by
  cases halpha : c.isAlpha with
  | false => rfl
  | true =>
      have hrange := (isAlpha_iff c).1 halpha
      simp only [isArithmeticChar, Bool.or_eq_true, decide_eq_true_eq] at h
      rcases h with (hdigit | hwhite) | hsign
      · simp only [Char.isDigit, Bool.and_eq_true, decide_eq_true_eq] at hdigit
        have hhigh : c.toNat ≤ 57 := UInt32.le_iff_toNat_le.1 hdigit.2
        omega
      · simp only [isWhiteSpace, Bool.or_eq_true, Bool.and_eq_true, decide_eq_true_eq] at hwhite
        omega
      · simp only [List.mem_cons, List.not_mem_nil, or_false] at hsign
        rcases hsign with rfl | rfl | rfl | rfl | rfl | rfl | rfl <;>
          exact absurd halpha (by decide)

theorem isAlphabetic_of_isAlpha {c : Char} (h : c.isAlpha = true) : isAlphabetic c = true := by
  have hrange := (isAlpha_iff c).1 h
  rw [isAlphabetic_of_ascii (by omega), h]

theorem not_isAlpha_of_not_isAlphabetic {c : Char} (h : isAlphabetic c = false) :
    c.isAlpha = false := by
  refine eq_false_of_ne_true fun halpha => ?_
  rw [isAlphabetic_of_isAlpha halpha] at h
  cases h

/-- A test that takes all letters alike does not see the case of a letter. -/
theorem apply_toLower {test : Char → Bool} {verdict : Bool}
    (h : ∀ c, c.isAlpha = true → test c = verdict) (c : Char) : test c.toLower = test c := by
  cases halpha : c.isAlpha with
  | false => rw [toLower_of_not_isAlpha halpha]
  | true => rw [h c halpha, h c.toLower ((isAlpha_toLower c).trans halpha)]

/-! ## Words -/

theorem dropWord?_eq_none {w c : Char} (hc : c.isAlpha = false) (hw : w.isAlpha = true)
    (word t : Text) : dropWord? (w :: word) (c :: t) = none := by
  have hne : c.toLower ≠ w := by
    rw [toLower_of_not_isAlpha hc]
    rintro rfl
    rw [hw] at hc
    cases hc
  rw [dropWord?, if_neg hne]

/-- A text that starts with a word has a letter. -/
theorem exists_isAlpha_of_dropWord? {w : Char} {word t rest : Text} (hw : w.isAlpha = true)
    (h : dropWord? (w :: word) t = some rest) : ∃ c ∈ t, c.isAlpha = true := by
  cases t with
  | nil => cases h
  | cons c t' =>
      refine ⟨c, List.mem_cons_self, ?_⟩
      by_contra hc
      rw [dropWord?_eq_none (by simpa using hc) hw] at h
      cases h

theorem hasForeign_of_isAlpha {t : Text} (h : ∃ c ∈ t, c.isAlpha = true) : HasForeign t := by
  obtain ⟨c, hmem, hc⟩ := h
  refine ⟨c, hmem, ?_⟩
  by_contra hplain
  rw [not_isAlpha_of_isArithmeticChar (by simpa using hplain)] at hc
  cases hc

theorem hasForeign_of_dropWord? {w : Char} {word t rest : Text} (hw : w.isAlpha = true)
    (h : dropWord? (w :: word) t = some rest) : HasForeign t :=
  hasForeign_of_isAlpha (exists_isAlpha_of_dropWord? hw h)

/-! ## Replacements -/

section

variable {rule : PhrasingRule} {t : Text}

/-- A rule that applies nowhere changes nothing. -/
theorem replaceAll_eq_self (h : ∀ c ∈ t, ∀ rest, rule (c :: rest) = none) :
    replaceAll rule t = t := by
  refine replaceAll_eq_of_exact fun before u written rest hne ht hrule => ?_
  obtain ⟨c, u, rfl⟩ := List.exists_cons_of_ne_nil hne
  rw [h c (by simp [ht]) u] at hrule
  cases hrule

/-- A rule that writes foreign characters leaves no text without them. -/
theorem hasForeign_replaceAll
    (hrule : ∀ t replacement after, rule t = some (replacement, after) → HasForeign replacement)
    (h : HasForeign t) : HasForeign (replaceAll rule t) := by
  -- where nothing is replaced, a foreign character is copied or still ahead
  have hkept (c : Char) (rest : Text) (hc : HasForeign (c :: rest))
      (ih : HasForeign rest → HasForeign (replaceAll rule rest)) :
      HasForeign (c :: replaceAll rule rest) := by
    rw [hasForeign_cons_iff] at hc ⊢
    exact hc.imp_right ih
  fun_induction replaceAll rule t with
  | case1 => exact h
  | case2 c rest replacement after hmatch hlt ih => exact (hrule _ _ _ hmatch).append_left _
  | case3 c rest replacement after hmatch hlt ih => exact hkept c rest h ih
  | case4 c rest hmatch ih => exact hkept c rest h ih

end

/-! ## The four passes -/

theorem hasForeign_callOpening : HasForeign callOpening :=
  ⟨'s', by decide, by decide⟩

theorem hasForeign_rootCall (argument : Literal) : HasForeign (rootCall argument) := by
  rw [rootCall, List.append_assoc]
  exact hasForeign_callOpening.append_left _

theorem radicalRule_writes (t replacement after : Text)
    (h : radicalRule t = some (replacement, after)) : HasForeign replacement := by
  unfold radicalRule at h
  split at h
  · split at h <;> cases h <;> exact hasForeign_callOpening
  · cases h

theorem phraseRule_writes (t replacement after : Text)
    (h : phraseRule t = some (replacement, after)) : HasForeign replacement := by
  simp only [phraseRule, Option.bind_eq_bind, Option.bind_eq_some_iff] at h
  obtain ⟨_, _, _, _, _, _, ⟨argument, rest⟩, _, h⟩ := h
  cases h
  exact hasForeign_rootCall argument

theorem callRule_writes (t replacement after : Text)
    (h : callRule t = some (replacement, after)) : HasForeign replacement := by
  simp only [callRule, Option.bind_eq_bind, Option.bind_eq_some_iff] at h
  obtain ⟨_, _, ⟨argument, rest⟩, _, h⟩ := h
  split at h <;> cases h <;> exact hasForeign_rootCall argument

theorem hasForeign_of_leadingRoot? {t replacement : Text}
    (h : leadingRoot? t = some replacement) : HasForeign replacement := by
  simp only [leadingRoot?, Option.bind_eq_bind, Option.bind_eq_some_iff] at h
  obtain ⟨_, _, ⟨argument, rest⟩, _, h⟩ := h
  split at h
  · cases h
    exact hasForeign_rootCall argument
  · cases h

/-- The canonical form of a text with a foreign character has a foreign character. -/
theorem hasForeign_canonical {query : Text} (h : HasForeign (Text.trim query)) :
    HasForeign (canonical query) := by
  have hradical := hasForeign_replaceAll radicalRule_writes h
  have hphrase := hasForeign_replaceAll phraseRule_writes hradical
  apply hasForeign_replaceAll callRule_writes
  cases hroot : leadingRoot? (replaceAll phraseRule (replaceAll radicalRule (Text.trim query))) with
  | none => exact hphrase
  | some replacement => exact hasForeign_of_leadingRoot? hroot

/-- A text without letters and radical signs is only trimmed. -/
theorem canonical_eq_trim {query : Text}
    (h : ∀ c ∈ Text.trim query, c.isAlpha = false ∧ c ≠ '√') :
    canonical query = Text.trim query := by
  have hradical : replaceAll radicalRule (Text.trim query) = Text.trim query := by
    refine replaceAll_eq_self fun c hmem rest => ?_
    unfold radicalRule
    split
    · next heq =>
        cases heq
        exact absurd rfl (h _ hmem).2
    · rfl
  have hphrase : replaceAll phraseRule (Text.trim query) = Text.trim query := by
    refine replaceAll_eq_self fun c hmem rest => ?_
    rw [phraseRule, squareWord, dropWord?_eq_none (h c hmem).1 (by decide)]
    rfl
  have hcall : replaceAll callRule (Text.trim query) = Text.trim query := by
    refine replaceAll_eq_self fun c hmem rest => ?_
    rw [callRule, callOpening, dropWord?_eq_none (h c hmem).1 (by decide)]
    rfl
  have hleading : leadingRoot? (Text.trim query) = none := by
    rw [leadingRoot?, rootWord]
    cases ht : Text.trim query with
    | nil => rfl
    | cons c rest =>
        rw [dropWord?_eq_none (h c (by rw [ht]; exact List.mem_cons_self)).1 (by decide)]
        rfl
  simp only [canonical, hradical, hphrase, hleading, Option.getD_none, hcall]

end Stepwise
