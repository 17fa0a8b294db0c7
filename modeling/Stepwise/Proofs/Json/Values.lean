import Stepwise.Proofs.Json.Tokens

set_option autoImplicit false

/-! # JSON values, written and read

A text is read as a value (`ReadsAs`) when the reader takes it for that value whatever follows, a
continued numeral excepted, and with any fuel above the length of the text. Blanks in front make no
difference, and the texts of items and members can be put together. Both layouts of a value are put
together in these ways, so a value that can be written down is read back from either of them
(`read?_write`).
-/

namespace Stepwise

/-! ## Texts that are read as values -/

/-- The text is read as the value. -/
def ReadsAs (v : JsonValue) (t : Text) : Prop :=
  ∀ fuel rest, t.length ≤ fuel → NumeralEnds rest →
    readValue? (fuel + 1) (t ++ rest) = some (v, rest)

/-- The text, which ends with the closing bracket, is read as items of an array. -/
def ItemsReadAs (items : List JsonValue) (t : Text) : Prop :=
  ∀ fuel rest, t.length ≤ fuel → readItems? (fuel + 1) (t ++ rest) = some (items, rest)

/-- The text, which ends with the closing brace, is read as members of an object. -/
def MembersReadAs (members : List (JsonString × JsonValue)) (t : Text) : Prop :=
  ∀ fuel rest, t.length ≤ fuel → readMembers? (fuel + 1) (t ++ rest) = some (members, rest)

/-- A token ends a numeral. -/
theorem numeralEnds_cons {c : Char} (h : c.isDigit = false ∧ c ≠ '.' ∧ c ≠ 'e' ∧ c ≠ 'E')
    (t : Text) : NumeralEnds (c :: t) := by
  intro d rest ht
  cases ht
  exact h

theorem numeralEnds_blanks {blanks t : Text} (hblanks : AllBlank blanks) (h : NumeralEnds t) :
    NumeralEnds (blanks ++ t) := by
  cases blanks with
  | nil => exact h
  | cons c blanks =>
      have hc := hblanks c List.mem_cons_self
      simp only [isBlank, Bool.or_eq_true, decide_eq_true_eq] at hc
      refine numeralEnds_cons ?_ _
      rcases hc with ((rfl | rfl) | rfl) | rfl <;> decide

/-! ## Tokens -/

section

variable {fuel : Nat} {t : Text}

theorem readValue?_blanks {blanks : Text} (h : AllBlank blanks) :
    readValue? fuel (blanks ++ t) = readValue? fuel t := by
  cases fuel with
  | zero => rfl
  | succ fuel => rw [readValue?, readValue?, Text.skipBlanks_append h]

theorem readMembers?_blanks {blanks : Text} (h : AllBlank blanks) :
    readMembers? fuel (blanks ++ t) = readMembers? fuel t := by
  cases fuel with
  | zero => rfl
  | succ fuel => rw [readMembers?, readMembers?, Text.skipBlanks_append h]

/-- A digit or a minus sign starts a numeral. -/
theorem readValue?_numeral {c : Char} (hc : c.isDigit = true ∨ c = '-') :
    readValue? (fuel + 1) (c :: t) =
      (readNumeral? (c :: t)).map fun read => (.number read.1, read.2) := by
  have hblank : isBlank c = false := by
    rcases hc with hc | rfl
    · exact not_isBlank_of_isDigit hc
    · decide
  rw [readValue?, Text.skipBlanks_cons hblank]
  split
  case h_7 => rfl
  -- a digit or a minus sign starts no other value
  all_goals
    next heq =>
      cases heq
      exact absurd hc (by decide)

theorem quoted_append (s : JsonString) :
    JsonString.quoted s ++ t = '"' :: (s.flatMap JsonChar.text ++ '"' :: t) := by
  simp [JsonString.quoted]

/-- A member is its key, a colon and its value. A comma behind it tells that there are more. -/
theorem readMembers?_next {v : JsonValue} {after rest : Text} (key : Text)
    (hvalue : readValue? fuel t = some (v, after)) (hcomma : Text.skipBlanks after = ',' :: rest) :
    readMembers? (fuel + 1) (JsonString.quoted (.ofText key) ++ ':' :: t) =
      (readMembers? fuel rest).map fun read => ((.ofText key, v) :: read.1, read.2) := by
  rw [quoted_append, readMembers?]
  simp only [Text.skipBlanks_cons (show isBlank '"' = false by decide), readString?_quoted,
    Text.skipBlanks_cons (show isBlank ':' = false by decide), Option.bind_eq_bind,
    Option.bind_some, hvalue, hcomma]
  cases readMembers? fuel rest <;> rfl

theorem readMembers?_last {v : JsonValue} {after rest : Text} (key : Text)
    (hvalue : readValue? fuel t = some (v, after))
    (hbrace : Text.skipBlanks after = '\x7d' :: rest) :
    readMembers? (fuel + 1) (JsonString.quoted (.ofText key) ++ ':' :: t) =
      some ([(.ofText key, v)], rest) := by
  rw [quoted_append, readMembers?]
  simp only [Text.skipBlanks_cons (show isBlank '"' = false by decide), readString?_quoted,
    Text.skipBlanks_cons (show isBlank ':' = false by decide), Option.bind_eq_bind,
    Option.bind_some, hvalue, hbrace]
  rfl

end

/-! ## Putting texts together -/

section

variable {v : JsonValue} {items : List JsonValue} {members : List (JsonString × JsonValue)}
  {t u gap : Text}

theorem ReadsAs.read (h : ReadsAs v t) {fuel : Nat} (hfuel : t.length < fuel) {rest : Text}
    (hrest : NumeralEnds rest) : readValue? fuel (t ++ rest) = some (v, rest) := by
  obtain ⟨fuel, rfl⟩ := Nat.exists_eq_add_one_of_ne_zero (Nat.ne_zero_of_lt hfuel)
  exact h fuel rest (by omega) hrest

theorem ItemsReadAs.read (h : ItemsReadAs items t) {fuel : Nat} (hfuel : t.length < fuel)
    (rest : Text) : readItems? fuel (t ++ rest) = some (items, rest) := by
  obtain ⟨fuel, rfl⟩ := Nat.exists_eq_add_one_of_ne_zero (Nat.ne_zero_of_lt hfuel)
  exact h fuel rest (by omega)

theorem MembersReadAs.read (h : MembersReadAs members t) {fuel : Nat} (hfuel : t.length < fuel)
    (rest : Text) : readMembers? fuel (t ++ rest) = some (members, rest) := by
  obtain ⟨fuel, rfl⟩ := Nat.exists_eq_add_one_of_ne_zero (Nat.ne_zero_of_lt hfuel)
  exact h fuel rest (by omega)

theorem ReadsAs.blanks (h : ReadsAs v t) (hgap : AllBlank gap) : ReadsAs v (gap ++ t) := by
  intro fuel rest hfuel hrest
  rw [List.length_append] at hfuel
  rw [List.append_assoc, readValue?_blanks hgap]
  exact h fuel rest (by omega) hrest

theorem MembersReadAs.blanks (h : MembersReadAs members t) (hgap : AllBlank gap) :
    MembersReadAs members (gap ++ t) := by
  intro fuel rest hfuel
  rw [List.length_append] at hfuel
  rw [List.append_assoc, readMembers?_blanks hgap]
  exact h fuel rest (by omega)

theorem readsAs_null : ReadsAs .null ['n', 'u', 'l', 'l'] := by
  intro fuel rest _ _
  rw [readValue?]
  rfl

theorem readsAs_bool (b : Bool) : ReadsAs (.bool b) (boolText b) := by
  intro fuel rest _ _
  rw [readValue?]
  cases b <;> rfl

theorem readsAs_string (s : Text) :
    ReadsAs (.string (.ofText s)) (JsonString.quoted (.ofText s)) := by
  intro fuel rest _ _
  rw [quoted_append, readValue?, Text.skipBlanks_cons (by decide)]
  show (readString? _).map _ = _
  rw [readString?_quoted]
  rfl

/-- A numeral is the only value that what follows could go on with. -/
theorem readsAs_number {n : JsonNumeral} (h : n.IsRegular) : ReadsAs (.number n) n.text := by
  intro fuel rest _ hrest
  have hread := readNumeral?_text hrest h
  obtain ⟨c, tail, htext, hc⟩ : ∃ c tail, n.text = c :: tail ∧ (c.isDigit = true ∨ c = '-') := by
    obtain ⟨c, whole, hwhole, hdigit⟩ := h.exists_head
    rw [JsonNumeral.text_eq, hwhole]
    cases n.negative with
    | true => exact ⟨'-', _, rfl, .inr rfl⟩
    | false => exact ⟨c, _, rfl, .inl hdigit⟩
  rw [htext] at hread ⊢
  rw [List.cons_append, readValue?_numeral hc, ← List.cons_append, hread]
  rfl

theorem readsAs_array_nil : ReadsAs (.array []) ['[', ']'] := by
  intro fuel rest _ _
  rw [readValue?]
  rfl

theorem readsAs_object_nil : ReadsAs (.object []) ['\x7b', '\x7d'] := by
  intro fuel rest _ _
  rw [readValue?]
  rfl

/-- The items of an array behind its opening bracket. -/
theorem ItemsReadAs.array (h : ItemsReadAs items t) : ReadsAs (.array items) ('[' :: t) := by
  intro fuel rest hfuel _
  have hread := h.read (Nat.lt_of_succ_le hfuel) rest
  rw [List.cons_append, readValue?]
  simp only [Text.skipBlanks_cons (show isBlank '[' = false by decide)]
  split
  · next hclosing =>
      rw [readItems?_closing hclosing] at hread
      cases hread
  · rw [hread]
    rfl

/-- The members of an object behind its opening brace. -/
theorem MembersReadAs.object (h : MembersReadAs members t) :
    ReadsAs (.object members) ('\x7b' :: t) := by
  intro fuel rest hfuel _
  have hread := h.read (Nat.lt_of_succ_le hfuel) rest
  rw [List.cons_append, readValue?]
  simp only [Text.skipBlanks_cons (show isBlank '\x7b' = false by decide)]
  split
  · next hclosing =>
      rw [readMembers?_closing hclosing] at hread
      cases hread
  · rw [hread]
    rfl

/-- The last item, and the closing bracket. -/
theorem ReadsAs.lastItem (h : ReadsAs v t) (hgap : AllBlank gap) :
    ItemsReadAs [v] (t ++ (gap ++ [']'])) := by
  intro fuel rest hfuel
  simp only [List.length_append, List.length_singleton] at hfuel
  have hread := h.read (show t.length < fuel by omega)
    (numeralEnds_blanks hgap (numeralEnds_cons (c := ']') (by decide) rest))
  rw [List.append_assoc, List.append_assoc, List.singleton_append, readItems?, hread]
  simp only [Option.bind_eq_bind, Option.bind_some, Text.skipBlanks_append hgap,
    Text.skipBlanks_cons (show isBlank ']' = false by decide)]
  rfl

/-- An item in front of others. -/
theorem ReadsAs.nextItem (h : ReadsAs v t) (hitems : ItemsReadAs items u) :
    ItemsReadAs (v :: items) (t ++ ',' :: u) := by
  intro fuel rest hfuel
  simp only [List.length_append, List.length_cons] at hfuel
  have hread := h.read (show t.length < fuel by omega)
    (numeralEnds_cons (c := ',') (by decide) (u ++ rest))
  rw [List.append_assoc, List.cons_append, readItems?, hread]
  simp only [Option.bind_eq_bind, Option.bind_some,
    Text.skipBlanks_cons (show isBlank ',' = false by decide),
    hitems.read (show u.length < fuel by omega) rest]
  rfl

/-- The last member, and the closing brace. -/
theorem ReadsAs.lastMember (h : ReadsAs v t) (key : Text) (hgap : AllBlank gap) :
    MembersReadAs [(.ofText key, v)]
      (JsonString.quoted (.ofText key) ++ ':' :: (t ++ (gap ++ ['\x7d']))) := by
  intro fuel rest hfuel
  simp only [List.length_append, List.length_cons] at hfuel
  have hread := h.read (show t.length < fuel by omega)
    (numeralEnds_blanks hgap (numeralEnds_cons (c := '\x7d') (by decide) rest))
  rw [List.append_assoc, List.cons_append, List.append_assoc, List.append_assoc,
    List.singleton_append]
  exact readMembers?_last key hread
    (by rw [Text.skipBlanks_append hgap, Text.skipBlanks_cons (by decide)])

/-- A member in front of others. -/
theorem ReadsAs.nextMember (h : ReadsAs v t) (key : Text) (hmembers : MembersReadAs members u) :
    MembersReadAs ((.ofText key, v) :: members)
      (JsonString.quoted (.ofText key) ++ ':' :: (t ++ ',' :: u)) := by
  intro fuel rest hfuel
  simp only [List.length_append, List.length_cons] at hfuel
  have hread := h.read (show t.length < fuel by omega)
    (numeralEnds_cons (c := ',') (by decide) (u ++ rest))
  rw [List.append_assoc, List.cons_append, List.append_assoc, List.cons_append,
    readMembers?_next key hread (Text.skipBlanks_cons (by decide) _),
    hmembers.read (by omega) rest]
  rfl

end

/-! ## The two layouts -/

/-- A value with a text: its numerals have the form of JSON, and its strings are texts. -/
inductive JsonValue.IsRegular : JsonValue → Prop
  | null : IsRegular .null
  | bool (b : Bool) : IsRegular (.bool b)
  | number {n : JsonNumeral} (h : n.IsRegular) : IsRegular (.number n)
  | string (s : Text) : IsRegular (.string (.ofText s))
  | array {items : List JsonValue} (h : ∀ v ∈ items, IsRegular v) : IsRegular (.array items)
  | object {fields : List (Text × JsonValue)} (h : ∀ field ∈ fields, IsRegular field.2) :
      IsRegular (.object (fields.map fun field => (.ofText field.1, field.2)))

theorem allBlank_newLine (level : Nat) : AllBlank (newLine level) := by
  intro c hc
  rcases List.mem_cons.1 hc with rfl | hspace
  · decide
  · rw [(List.mem_replicate.1 hspace).2]
    decide

theorem itemsReadAs_compact {item : JsonValue} {rest : List JsonValue}
    (h : ∀ v ∈ item :: rest, ReadsAs v v.compact) :
    ItemsReadAs (item :: rest) (compactItems (item :: rest) ++ [']']) := by
  induction rest generalizing item with
  | nil =>
      rw [compactItems]
      exact (h item List.mem_cons_self).lastItem allBlank_nil
  | cons next rest ih =>
      rw [compactItems, List.append_assoc, List.cons_append]
      exact (h item List.mem_cons_self).nextItem
        (ih fun v hv => h v (List.mem_cons_of_mem _ hv))

theorem membersReadAs_compact {first : Text × JsonValue} {rest : List (Text × JsonValue)}
    (h : ∀ field ∈ first :: rest, ReadsAs field.2 field.2.compact) :
    MembersReadAs ((first :: rest).map fun field => (.ofText field.1, field.2))
      (compactMembers ((first :: rest).map fun field => (.ofText field.1, field.2)) ++
        ['\x7d']) := by
  induction rest generalizing first with
  | nil =>
      rw [List.map_singleton, compactMembers, List.append_assoc, List.cons_append]
      exact (h first List.mem_cons_self).lastMember first.1 allBlank_nil
  | cons next rest ih =>
      have hrest := ih fun field hfield => h field (List.mem_cons_of_mem first hfield)
      have hfirst := (h first List.mem_cons_self).nextMember first.1 hrest
      simpa only [List.map_cons, compactMembers, List.append_assoc, List.cons_append] using hfirst

/-- The items of an array, each on a line of its own. -/
theorem itemsReadAs_indented {item : JsonValue} {rest : List JsonValue} (inner outer : Nat)
    (h : ∀ v ∈ item :: rest, ReadsAs v (v.indented inner)) :
    ItemsReadAs (item :: rest)
      (newLine inner ++ item.indented inner ++
        (indentedItems inner rest ++ (newLine outer ++ [']']))) := by
  have hitem := (h item List.mem_cons_self).blanks (allBlank_newLine inner)
  induction rest generalizing item with
  | nil =>
      rw [indentedItems]
      exact hitem.lastItem (allBlank_newLine outer)
  | cons next rest ih =>
      have hrest := fun v hv => h v (List.mem_cons_of_mem item hv)
      have hnext := (hrest next List.mem_cons_self).blanks (allBlank_newLine inner)
      simpa only [indentedItems, List.append_assoc, List.cons_append] using
        hitem.nextItem (ih hrest hnext)

/-- The members of an object, each on a line of its own. -/
theorem membersReadAs_indented {first : Text × JsonValue} {rest : List (Text × JsonValue)}
    (inner outer : Nat)
    (h : ∀ field ∈ first :: rest, ReadsAs field.2 (field.2.indented inner)) :
    MembersReadAs ((first :: rest).map fun field => (.ofText field.1, field.2))
      (newLine inner ++ (JsonString.quoted (.ofText first.1) ++ ':' :: (' ' ::
        first.2.indented inner ++ (indentedMembers inner (rest.map fun field =>
          (.ofText field.1, field.2)) ++ (newLine outer ++ ['\x7d']))))) := by
  have hspace : AllBlank [' '] := by decide
  induction rest generalizing first with
  | nil =>
      rw [List.map_nil, indentedMembers]
      exact (((h first List.mem_cons_self).blanks hspace).lastMember first.1
        (allBlank_newLine outer)).blanks (allBlank_newLine inner)
  | cons next rest ih =>
      have hrest := ih fun field hfield => h field (List.mem_cons_of_mem first hfield)
      have hfirst := (((h first List.mem_cons_self).blanks hspace).nextMember first.1
        hrest).blanks (allBlank_newLine inner)
      simpa only [List.map_cons, indentedMembers, List.cons_append, List.append_assoc,
        List.nil_append] using hfirst

namespace JsonValue

theorem IsRegular.readsAs_compact {v : JsonValue} (h : v.IsRegular) : ReadsAs v v.compact := by
  induction h with
  | null => rw [compact]; exact readsAs_null
  | bool b => rw [compact]; exact readsAs_bool b
  | number h => rw [compact]; exact readsAs_number h
  | string s => rw [compact]; exact readsAs_string s
  | @array items _ ih =>
      rw [compact, List.cons_append]
      cases items with
      | nil => exact readsAs_array_nil
      | cons item rest => exact (itemsReadAs_compact ih).array
  | @object fields _ ih =>
      rw [compact, List.cons_append]
      cases fields with
      | nil => exact readsAs_object_nil
      | cons first rest => exact (membersReadAs_compact ih).object

theorem IsRegular.readsAs_indented {v : JsonValue} (h : v.IsRegular) (level : Nat) :
    ReadsAs v (v.indented level) := by
  induction h generalizing level with
  | null => rw [indented]; exact readsAs_null
  | bool b => rw [indented]; exact readsAs_bool b
  | number h => rw [indented]; exact readsAs_number h
  | string s => rw [indented]; exact readsAs_string s
  | @array items _ ih =>
      cases items with
      | nil => rw [indented]; exact readsAs_array_nil
      | cons item rest =>
          rw [indented]
          simpa only [List.cons_append, List.append_assoc] using
            (itemsReadAs_indented (level + 1) level fun v hv => ih v hv (level + 1)).array
  | @object fields _ ih =>
      cases fields with
      | nil => rw [List.map_nil, indented]; exact readsAs_object_nil
      | cons first rest =>
          rw [List.map_cons, indented]
          simpa only [List.map_cons, List.cons_append, List.append_assoc] using
            (membersReadAs_indented (level + 1) level fun field hfield =>
              ih field hfield (level + 1)).object

end JsonValue

/-- A text that is read as a value is the whole of a text of that value. -/
theorem ReadsAs.read?_eq {v : JsonValue} {t : Text} (h : ReadsAs v t) :
    JsonValue.read? t = some v := by
  have hread := h.read (Nat.lt_succ_self t.length) numeralEnds_nil
  rw [List.append_nil] at hread
  rw [JsonValue.read?, hread]
  rfl

/-- What is written in either layout is read back. -/
theorem JsonValue.IsRegular.read?_write {v : JsonValue} (h : v.IsRegular) (layout : JsonLayout) :
    read? (v.write layout).toList = some v := by
  cases layout with
  | compact =>
      show read? (String.ofList v.compact).toList = some v
      rw [String.toList_ofList]
      exact h.readsAs_compact.read?_eq
  | indented =>
      show read? (String.ofList (v.indented 0)).toList = some v
      rw [String.toList_ofList]
      exact (h.readsAs_indented 0).read?_eq

end Stepwise
