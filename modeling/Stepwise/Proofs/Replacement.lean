import Stepwise.Proofs.Scanning
import Stepwise.Query.Canonical

set_option autoImplicit false

/-! # A rule applied from left to right

`replaceAll` goes through a text once. `Rewrites` describes the pass without its guard: at
every place the rule either replaces what it reads or does not apply, and then the character is
copied. The pass writes a text next to text that it has copied, so in principle a phrase could
come about across the seam. It cannot for *segments*, texts that start with the letter `s` and
have no other one: if the rule writes segments, a segment in the result was copied as a whole,
or starts where the rule has written (`Rewrites.segment_cases`).
-/

namespace Stepwise

/-- The rule reads a start of the text that is not empty, and leaves the rest. -/
def PhrasingRule.Consumes (rule : PhrasingRule) : Prop :=
  ∀ t written rest, rule t = some (written, rest) → ∃ read, read ≠ [] ∧ t = read ++ rest

/-- The second text is the first one with the rule applied from left to right. -/
inductive Rewrites (rule : PhrasingRule) : Text → Text → Prop
  | done : Rewrites rule [] []
  | replace {t written rest out : Text} (hrule : rule t = some (written, rest))
      (h : Rewrites rule rest out) : Rewrites rule t (written ++ out)
  | copy {c : Char} {t out : Text} (hrule : rule (c :: t) = none) (h : Rewrites rule t out) :
      Rewrites rule (c :: t) (c :: out)

theorem rewrites_replaceAll {rule : PhrasingRule} (hrule : rule.Consumes) (t : Text) :
    Rewrites rule t (replaceAll rule t) := by
  fun_induction replaceAll rule t with
  | case1 => exact .done
  | case2 c rest written after hmatch hlt ih => exact .replace hmatch ih
  | case3 c rest written after hmatch hlt ih =>
      -- what the rule reads is not empty, so the guard always holds
      obtain ⟨read, hread, ht⟩ := hrule _ _ _ hmatch
      have hpos := List.length_pos_of_ne_nil hread
      rw [ht, List.length_append] at hlt
      omega
  | case4 c rest hmatch ih => exact .copy hmatch ih

/-- Where the rule applies, the pass writes and goes on behind what was read. -/
theorem replaceAll_of_some {rule : PhrasingRule} (hconsumes : rule.Consumes)
    {t written rest : Text} (h : rule t = some (written, rest)) :
    replaceAll rule t = written ++ replaceAll rule rest := by
  obtain ⟨read, hread, rfl⟩ := hconsumes t written rest h
  obtain ⟨c, read, rfl⟩ := List.exists_cons_of_ne_nil hread
  have hlt : rest.length < (c :: (read ++ rest)).length := by
    rw [List.length_cons, List.length_append]
    omega
  rw [List.cons_append] at h ⊢
  rw [replaceAll, h]
  exact if_pos hlt

/-- Where the rule does not apply, the pass copies a character. -/
theorem replaceAll_of_none {rule : PhrasingRule} {c : Char} {t : Text}
    (h : rule (c :: t) = none) : replaceAll rule (c :: t) = c :: replaceAll rule t := by
  rw [replaceAll, h]

/-- A rule that writes only what it reads changes nothing. -/
theorem replaceAll_eq_of_exact {rule : PhrasingRule} {t : Text}
    (h : ∀ before u written rest, u ≠ [] → t = before ++ u → rule u = some (written, rest) →
      u = written ++ rest) : replaceAll rule t = t := by
  fun_induction replaceAll rule t with
  | case1 => rfl
  | case2 c rest written after hmatch hlt ih =>
      have hread := h [] _ _ _ (List.cons_ne_nil c rest) rfl hmatch
      rw [ih, ← hread]
      intro before u written' rest' hne hu hrule
      exact h (written ++ before) u written' rest' hne (by rw [hread, hu, List.append_assoc]) hrule
  | case3 c rest written after hmatch hlt ih =>
      rw [ih]
      intro before u written' rest' hne hu hrule
      exact h (c :: before) u written' rest' hne (by rw [hu, List.cons_append]) hrule
  | case4 c rest hmatch ih =>
      rw [ih]
      intro before u written' rest' hne hu hrule
      exact h (c :: before) u written' rest' hne (by rw [hu, List.cons_append]) hrule

namespace Rewrites

variable {rule : PhrasingRule} {t out : Text}

theorem eq_nil_of_nil (hrule : ∀ t written rest, rule t = some (written, rest) → written ≠ [])
    (h : Rewrites rule t []) : t = [] := by
  generalize hout : ([] : Text) = out at h
  cases h with
  | done => rfl
  | replace hmatch h => exact absurd (List.append_eq_nil_iff.1 hout.symm).1 (hrule _ _ _ hmatch)
  | copy hmatch h => cases hout

/-- A property of the characters that the rule copies and of those that it writes. -/
theorem forall_mem {P : Char → Prop} (hconsumes : rule.Consumes)
    (hwritten : ∀ t written rest, rule t = some (written, rest) → ∀ c ∈ written, P c)
    (h : Rewrites rule t out) (hcopied : ∀ c rest, c ∈ t → rule (c :: rest) = none → P c) :
    ∀ c ∈ out, P c := by
  induction h with
  | done => exact fun c hc => absurd hc List.not_mem_nil
  | @replace t written rest out hmatch h ih =>
      obtain ⟨read, -, rfl⟩ := hconsumes _ _ _ hmatch
      intro c hc
      rcases List.mem_append.1 hc with hc | hc
      · exact hwritten _ _ _ hmatch c hc
      · exact ih (fun d rest hd => hcopied d rest (List.mem_append_right read hd)) c hc
  | @copy c t out hmatch h ih =>
      intro d hd
      rcases List.mem_cons.1 hd with rfl | hd
      · exact hcopied d t List.mem_cons_self hmatch
      · exact ih (fun e rest he => hcopied e rest (List.mem_cons_of_mem c he)) d hd

/-- A pass that writes trimmed texts leaves a text trimmed. -/
theorem isTrimmed (hconsumes : rule.Consumes)
    (hrule : ∀ t written rest, rule t = some (written, rest) →
      written ≠ [] ∧ Text.IsTrimmed written)
    (h : Rewrites rule t out) (ht : Text.IsTrimmed t) : Text.IsTrimmed out := by
  constructor
  · cases h with
    | done => exact ht.head
    | replace hmatch h =>
        obtain ⟨hne, htrimmed⟩ := hrule _ _ _ hmatch
        obtain ⟨c, written, rfl⟩ := List.exists_cons_of_ne_nil hne
        exact htrimmed.head
    | copy hmatch h => exact ht.head
  · have hlast := ht.last
    clear ht
    induction h with
    | done => exact hlast
    | @replace t written rest out hmatch h ih =>
        obtain ⟨read, -, rfl⟩ := hconsumes _ _ _ hmatch
        intro c hc
        rw [List.getLast?_append] at hc
        cases hout : out.getLast? with
        | none =>
            rw [hout] at hc
            exact (hrule _ _ _ hmatch).2.last c hc
        | some d =>
            rw [hout] at hc
            refine ih (fun e he => hlast e ?_) c (by rw [hout]; exact hc)
            rw [List.getLast?_append, Option.mem_def.1 he]
            rfl
    | @copy d t out hmatch h ih =>
        cases ht : t with
        | nil =>
            -- nothing is left to read, so the copied character is the last one
            subst ht
            generalize hnil : ([] : Text) = rest at h
            cases h with
            | done => exact hlast
            | replace hmatch' h =>
                obtain ⟨read, hread, hsplit⟩ := hconsumes _ _ _ hmatch'
                rw [← hnil] at hsplit
                exact absurd (List.append_eq_nil_iff.1 hsplit.symm).1 hread
            | copy hmatch' h => cases hnil
        | cons e rest =>
            have hout : out ≠ [] := by
              rintro rfl
              rw [h.eq_nil_of_nil fun u written rest hu => (hrule u written rest hu).1] at ht
              cases ht
            rw [ht, List.getLast?_cons_cons, ← ht] at hlast
            obtain ⟨f, out, rfl⟩ := List.exists_cons_of_ne_nil hout
            rw [List.getLast?_cons_cons]
            exact ih hlast

end Rewrites

/-! ## Segments -/

/-- No character of the text is the given one, in any case. -/
def Lacks (c : Char) (t : Text) : Prop := ∀ d ∈ t, d.toLower ≠ c

theorem Lacks.not_mem {c : Char} {t : Text} (h : Lacks c t) (hc : c.toLower = c) : c ∉ t :=
  fun hmem => h c hmem hc

/-- The text starts with the letter `s`, in any case, and has no other one. -/
inductive IsSegment : Text → Prop
  | intro {c : Char} {t : Text} (head : c.toLower = 's') (tail : Lacks 's' t) : IsSegment (c :: t)

/-- A segment in a segment stands at its start. -/
theorem IsSegment.eq_nil_of_append {t before segment after : Text} (ht : IsSegment t)
    (hsegment : IsSegment segment) (h : t = before ++ segment ++ after) : before = [] := by
  cases before with
  | nil => rfl
  | cons c before =>
      obtain ⟨-, hfree⟩ := ht
      obtain ⟨hhead, -⟩ := hsegment
      obtain ⟨-, rfl⟩ := List.cons.inj h
      exact absurd hhead (hfree _ (by simp))

namespace Rewrites

variable {rule : PhrasingRule} {t out : Text}

/-- If the rule writes segments, what is free of the letter `s` at the start of the result was
copied from the start of the text. -/
theorem of_append (hrule : ∀ t written rest, rule t = some (written, rest) → IsSegment written)
    {start out : Text} (hstart : Lacks 's' start) (h : Rewrites rule t (start ++ out)) :
    ∃ rest, t = start ++ rest ∧ Rewrites rule rest out := by
  induction start generalizing t with
  | nil => exact ⟨t, rfl, h⟩
  | cons c start ih =>
      generalize hout : c :: start ++ out = result at h
      cases h with
      | done => cases hout
      | @replace _ written rest out' hmatch h =>
          obtain ⟨hhead, -⟩ := hrule _ _ _ hmatch
          obtain ⟨rfl, -⟩ := List.cons.inj hout
          exact absurd hhead (hstart c List.mem_cons_self)
      | copy hmatch h =>
          cases hout
          obtain ⟨rest, rfl, hrest⟩ := ih (fun d hd => hstart d (List.mem_cons_of_mem _ hd)) h
          exact ⟨rest, rfl, hrest⟩

/-- A segment in the result of a rule that writes segments was copied as a whole, where the rule
does not apply, or starts where the rule has written. -/
theorem segment_cases (hconsumes : rule.Consumes)
    (hrule : ∀ t written rest, rule t = some (written, rest) → IsSegment written)
    (h : Rewrites rule t out) {before segment after : Text} (hsegment : IsSegment segment)
    (hout : out = before ++ segment ++ after) :
    (∃ before' rest, t = before' ++ segment ++ rest ∧ rule (segment ++ rest) = none) ∨
      ∃ u written rest out',
        rule u = some (written, rest) ∧ segment ++ after = written ++ out' := by
  induction h generalizing before with
  | done =>
      obtain ⟨⟩ := hsegment
      simp at hout
  | @replace t written rest out' hmatch h ih =>
      obtain ⟨read, -, ht⟩ := hconsumes _ _ _ hmatch
      -- a segment behind what is written is one of the rest of the pass
      have hbehind (before' : Text) (hout' : out' = before' ++ segment ++ after) :
          (∃ before' rest', t = before' ++ segment ++ rest' ∧ rule (segment ++ rest') = none) ∨
            ∃ u written rest out', rule u = some (written, rest) ∧
              segment ++ after = written ++ out' := by
        refine (ih hout').imp_left ?_
        rintro ⟨before', rest', hrest, hnone⟩
        exact ⟨read ++ before', rest', by rw [ht, hrest]; simp, hnone⟩
      rw [List.append_assoc] at hout
      rcases List.append_eq_append_iff.1 hout with ⟨start, -, hrest⟩ | ⟨start, hwritten, hrest⟩
      · exact hbehind start (hrest.trans (List.append_assoc _ _ _).symm)
      · cases start with
        | nil => exact hbehind [] hrest.symm
        | cons d start =>
            cases before with
            | nil => exact .inr ⟨t, written, rest, out', hmatch, by rw [hrest, hwritten]; rfl⟩
            | cons e before =>
                -- inside what is written there is no letter to start the segment
                obtain ⟨hhead, -⟩ := hsegment
                obtain ⟨-, hfree⟩ := hrule _ _ _ hmatch
                obtain ⟨-, rfl⟩ := List.cons.inj hwritten
                obtain ⟨rfl, -⟩ := List.cons.inj hrest
                exact absurd hhead (hfree _ (by simp))
  | @copy c t out' hmatch h ih =>
      cases before with
      | nil =>
          obtain ⟨hhead, htail⟩ := hsegment
          cases hout
          obtain ⟨rest, rfl, hrest⟩ := h.of_append hrule htail
          exact .inl ⟨[], rest, rfl, hmatch⟩
      | cons d before =>
          cases hout
          rcases ih rfl with ⟨before', rest, rfl, hnone⟩ | hwritten
          · exact .inl ⟨c :: before', rest, rfl, hnone⟩
          · exact .inr hwritten

end Rewrites

end Stepwise
