import Stepwise.Document
import Stepwise.Proofs.Json.Values

set_option autoImplicit false

/-! # Documents, written and read

A record is read back field by field: the fields that are present are the members of its object,
and a field that is absent is found absent (`fields?_record`). A document is a record of fields that
are read back, so each of the four documents comes back from either layout (`read_write_documents`).
Which numbers come back depends on the reader of numbers and on nothing else, so the readers of
documents are looked at for any such reader (`ExplainDocument.readWith?_toJson`).
-/

namespace Stepwise

open JsonValue (required? optional? string? bool? nat? binary64?)

/-- Reading a list item by item. -/
theorem mapM_eq_some_map {α β : Type} {read : α → Option β} {f : α → β} {items : List α}
    (h : ∀ a ∈ items, read a = some (f a)) : items.mapM read = some (items.map f) := by
  induction items with
  | nil => rfl
  | cons a rest ih =>
      rw [List.mapM_cons, h a List.mem_cons_self, ih fun b hb => h b (List.mem_cons_of_mem a hb)]
      rfl

/-! ## Records -/

/-- The fields that are present, by their names. -/
def presentFields (fields : List (String × Option JsonValue)) : List (Text × JsonValue) :=
  fields.filterMap fun field => field.2.map (field.1.toList, ·)

section

variable {fields : List (String × Option JsonValue)}

theorem record_eq : JsonValue.record fields =
    .object ((presentFields fields).map fun field => (.ofText field.1, field.2)) := by
  rw [JsonValue.record, presentFields, List.map_filterMap]
  congr
  funext field
  cases field.2 <;> rfl

theorem mem_presentFields {field : Text × JsonValue} (h : field ∈ presentFields fields) :
    ∃ name, (name, some field.2) ∈ fields ∧ name.toList = field.1 := by
  obtain ⟨⟨name, value⟩, hmem, hfield⟩ := List.mem_filterMap.1 h
  cases value with
  | none => cases hfield
  | some value =>
      cases hfield
      exact ⟨name, hmem, rfl⟩

theorem presentFields_cons (name : String) (value : Option JsonValue) :
    presentFields ((name, value) :: fields) =
      (value.map (name.toList, ·)).toList ++ presentFields fields := by
  cases value <;> rfl

/-- The values of the fields that are present can be written down. -/
def RegularFields (fields : List (String × Option JsonValue)) : Prop :=
  ∀ field ∈ fields, ∀ v ∈ field.2, v.IsRegular

namespace RegularFields

theorem nil : RegularFields [] := List.forall_mem_nil _

theorem present {name : String} {v : JsonValue} (hv : v.IsRegular) (h : RegularFields fields) :
    RegularFields ((name, some v) :: fields) := by
  refine List.forall_mem_cons.2 ⟨?_, h⟩
  rintro _ ⟨⟩
  exact hv

theorem optional {α : Type} {name : String} {value : Option α} {write : α → JsonValue}
    (hwrite : ∀ a, (write a).IsRegular) (h : RegularFields fields) :
    RegularFields ((name, value.map write) :: fields) := by
  refine List.forall_mem_cons.2 ⟨fun v hv => ?_, h⟩
  obtain ⟨a, -, rfl⟩ := Option.map_eq_some_iff.1 hv
  exact hwrite a

theorem isRegular_record (h : RegularFields fields) : (JsonValue.record fields).IsRegular := by
  rw [record_eq]
  refine .object fun field hfield => ?_
  obtain ⟨name, hmem, -⟩ := mem_presentFields hfield
  exact h _ hmem field.2 rfl

end RegularFields

/-- No member has the name of no field. -/
theorem filter_presentFields_eq_nil {name : String} (h : name ∉ fields.map Prod.fst) :
    (presentFields fields).filter (fun member => member.1 = name.toList) = [] := by
  rw [List.filter_eq_nil_iff]
  intro member hmember hname
  obtain ⟨other, hmem, hother⟩ := mem_presentFields hmember
  have heq : other = name := String.toList_inj.1 (hother.trans (of_decide_eq_true hname))
  exact h (List.mem_map.2 ⟨_, hmem, heq⟩)

/-- A field of a record is found under its name, or found absent. -/
theorem field?_presentFields {name : String} {value : Option JsonValue}
    (hnames : (fields.map Prod.fst).Nodup) (h : (name, value) ∈ fields) :
    JsonValue.field? (presentFields fields) name = some value := by
  have hmembers : (presentFields fields).filter (fun member => member.1 = name.toList) =
      (value.map (name.toList, ·)).toList := by
    induction fields with
    | nil => cases h
    | cons first rest ih =>
        obtain ⟨hfirst, hrest⟩ := List.nodup_cons.1 hnames
        rw [presentFields_cons, List.filter_append]
        rcases List.mem_cons.1 h with heq | hmem
        · cases heq
          rw [filter_presentFields_eq_nil hfirst]
          cases value <;> simp
        · have hne : first.1 ≠ name := by
            rintro rfl
            exact hfirst (List.mem_map.2 ⟨_, hmem, rfl⟩)
          rw [ih hrest hmem]
          cases first.2 <;> simp [String.toList_inj, hne]
  rw [JsonValue.field?, hmembers]
  cases value <;> rfl

/-- The fields of a record are read back from its object. -/
theorem fields?_record {names : List String} (hfields : fields.map Prod.fst = names)
    (hnames : names.Nodup) :
    (JsonValue.record fields).fields? names = some (fields.map Prod.snd) := by
  subst hfields
  have hmembers : JsonValue.namedMembers?
      ((presentFields fields).map fun field => (.ofText field.1, field.2)) =
      some (presentFields fields) := by
    rw [JsonValue.namedMembers?, List.mapM_map]
    refine (mapM_eq_some_map (f := id) fun field _ => ?_).trans (by rw [List.map_id])
    rw [Function.comp_apply, JsonString.text?_ofText]
    rfl
  rw [record_eq, JsonValue.fields?]
  simp only [hmembers, Option.bind_eq_bind, Option.bind_some]
  rw [List.mapM_map]
  exact mapM_eq_some_map fun field hfield => field?_presentFields hnames hfield

end

/-! ## Fields -/

theorem string?_ofString (s : String) : string? (.ofString s) = some s := by
  rw [JsonValue.ofString, string?, JsonString.text?_ofText, Option.map_some, String.ofList_toList]

theorem version?_ofVersion (v : UInt8) : (JsonValue.ofVersion v).version? = some v := by
  have hv : v.toNat ≤ 255 := Nat.le_of_lt_succ v.toNat_lt
  rw [JsonValue.ofVersion, JsonValue.version?, nat?, JsonNumeral.word?_ofNat hv, Option.map_some,
    UInt8.ofNat_toNat]

/-- A field that may be absent is read back if a value in it is, and is never written as null. -/
theorem optional?_map {α : Type} {read : JsonValue → Option α} {write : α → JsonValue}
    (value : Option α) (hread : ∀ a ∈ value, read (write a) = some a) (hnull : read .null = none) :
    optional? read (value.map write) = some value := by
  cases value with
  | none => rfl
  | some a =>
      have ha := hread a rfl
      rw [Option.map_some, JsonValue.optional?.eq_def]
      split
      · next h => cases h
      · next h =>
          rw [Option.some.inj h, hnull] at ha
          cases ha
      · next h => rw [← Option.some.inj h, ha]; rfl

/-- The number is read back from its numeral. -/
def Binary64.IsReadBack (x : Binary64) : Prop := binary64? (.ofBinary64 x) = some x

instance (x : Binary64) : Decidable x.IsReadBack := inferInstanceAs (Decidable (_ = _))

theorem isRegular_ofNat (n : Nat) : (JsonValue.number (.ofNat n)).IsRegular :=
  .number (JsonNumeral.isRegular_ofNat n)

theorem isRegular_ofBinary64 (x : Binary64) : (JsonValue.ofBinary64 x).IsRegular := by
  cases x with
  | finite negative m => exact .number (JsonNumeral.isRegular_ofDecimal _ _)
  | infinite negative => exact .null
  | nan => exact .null

/-! ## Documents -/

section

variable (number? : JsonValue → Option Binary64)

/-- The index is a word, and the reader of numbers returns the result from its numeral. -/
structure StepDocument.IsReadWith (d : StepDocument) : Prop where
  index : d.index ≤ JsonNumeral.maxWord
  result : ∀ x ∈ d.result, number? (.ofBinary64 x) = some x

/-- The reader of numbers returns the numbers of the document from their numerals. -/
structure ExplainDocument.IsReadWith (d : ExplainDocument) : Prop where
  steps : ∀ step ∈ d.steps, step.IsReadWith number?
  finalResult : ∀ x ∈ d.finalResult, number? (.ofBinary64 x) = some x

end

/-- The index is a word, and the result is read back from its numeral. -/
abbrev StepDocument.IsReadBack (d : StepDocument) : Prop := d.IsReadWith binary64?

/-- The steps are read back, and the final result is. -/
abbrev ExplainDocument.IsReadBack (d : ExplainDocument) : Prop := d.IsReadWith binary64?

theorem StepDocument.isRegular_toJson (d : StepDocument) : d.toJson.IsRegular :=
  RegularFields.isRegular_record <|
    .present (isRegular_ofNat _) <|
    .present (.string _) <|
    .optional (fun _ => .string _) <|
    .optional isRegular_ofBinary64 .nil

theorem RejectionDocument.isRegular_toJson (d : RejectionDocument) : d.toJson.IsRegular :=
  RegularFields.isRegular_record <|
    .present (.string _) <|
    .present (.string _) <|
    .present (.string _) .nil

theorem ExplainDocument.isRegular_toJson (d : ExplainDocument) : d.toJson.IsRegular := by
  have hsteps : (JsonValue.array (d.steps.map StepDocument.toJson)).IsRegular :=
    .array (List.forall_mem_map.2 fun step _ => step.isRegular_toJson)
  exact RegularFields.isRegular_record <|
    .present (isRegular_ofNat _) <|
    .present (.bool _) <|
    .present (.string _) <|
    .present (.string _) <|
    .present (.string _) <|
    .present hsteps <|
    .optional isRegular_ofBinary64 <|
    .optional RejectionDocument.isRegular_toJson .nil

theorem ClassifyDocument.isRegular_toJson (d : ClassifyDocument) : d.toJson.IsRegular :=
  RegularFields.isRegular_record <|
    .present (isRegular_ofNat _) <|
    .present (.string _) <|
    .present (.string _) <|
    .present (.string _) .nil

theorem FailureDocument.isRegular_toJson (d : FailureDocument) : d.toJson.IsRegular :=
  RegularFields.isRegular_record <|
    .present (isRegular_ofNat _) <|
    .present (.bool _) <|
    .present (.string _) <|
    .present (.string _) <|
    .present (.string _) <|
    .optional (fun _ => .string _) .nil

theorem RejectionDocument.ofJson?_toJson (d : RejectionDocument) : ofJson? d.toJson = some d := by
  have hfields : d.toJson.fields? ["kind", "code", "message"] = some _ :=
    fields?_record rfl (by decide)
  simp [ofJson?, hfields, required?, string?_ofString]

theorem ClassifyDocument.ofJson?_toJson (d : ClassifyDocument) : ofJson? d.toJson = some d := by
  have hfields : d.toJson.fields? ["schema_version", "input", "kind", "normalized"] = some _ :=
    fields?_record rfl (by decide)
  simp [ofJson?, hfields, required?, string?_ofString, version?_ofVersion]

theorem FailureDocument.ofJson?_toJson (d : FailureDocument) : ofJson? d.toJson = some d := by
  have hfields : d.toJson.fields? ["schema_version", "ok", "kind", "code", "error", "input"] =
      some _ := fields?_record rfl (by decide)
  have hinput := optional?_map d.input (fun s _ => string?_ofString s) rfl
  simp [ofJson?, hfields, hinput, required?, bool?, string?_ofString, version?_ofVersion]

/-! ### Readers of numbers -/

section

variable {number? : JsonValue → Option Binary64} (hnull : number? .null = none)
include hnull

theorem StepDocument.readWith?_toJson {d : StepDocument} (h : d.IsReadWith number?) :
    readWith? number? d.toJson = some d := by
  have hfields : d.toJson.fields? ["index", "title", "detail", "result"] = some _ :=
    fields?_record rfl (by decide)
  have hdetail := optional?_map d.detail (fun s _ => string?_ofString s) rfl
  have hresult := optional?_map d.result h.result hnull
  simp [readWith?, hfields, hdetail, hresult, required?, nat?, string?_ofString,
    JsonNumeral.word?_ofNat h.index]

theorem ExplainDocument.stepsWith?_map {steps : List StepDocument}
    (h : ∀ step ∈ steps, step.IsReadWith number?) :
    stepsWith? number? (.array (steps.map StepDocument.toJson)) = some steps := by
  rw [stepsWith?, List.mapM_map]
  exact (mapM_eq_some_map fun step hstep =>
    StepDocument.readWith?_toJson hnull (h step hstep)).trans (by rw [List.map_id'])

theorem ExplainDocument.readWith?_toJson {d : ExplainDocument} (h : d.IsReadWith number?) :
    readWith? number? d.toJson = some d := by
  have hfields : d.toJson.fields? ["schema_version", "ok", "input", "route", "title", "steps",
      "final_result", "error"] = some _ := fields?_record rfl (by decide)
  have hresult := optional?_map d.finalResult h.finalResult hnull
  have herror := optional?_map d.error (fun r _ => r.ofJson?_toJson) rfl
  simp [readWith?, hfields, hresult, herror, required?, bool?, string?_ofString,
    version?_ofVersion, stepsWith?_map hnull h.steps]

end

/-- Whoever reads the document back has read back its final result. -/
theorem ExplainDocument.finalResult_of_readWith? {number? : JsonValue → Option Binary64}
    {d : ExplainDocument} (h : readWith? number? d.toJson = some d) {x : Binary64}
    (hx : d.finalResult = some x) (hfinite : x.isFinite = true) :
    number? (.ofBinary64 x) = some x := by
  have hfields : d.toJson.fields? ["schema_version", "ok", "input", "route", "title", "steps",
      "final_result", "error"] = some _ := fields?_record rfl (by decide)
  simp only [readWith?, hfields, Option.bind_eq_bind, Option.bind_some, List.map_cons,
    List.map_nil, Option.bind_eq_some_iff] at h
  obtain ⟨_, -, _, -, _, -, _, -, _, -, _, -, finalResult, hresult, _, -, h⟩ := h
  obtain rfl : finalResult = d.finalResult :=
    congrArg ExplainDocument.finalResult (Option.some.inj h)
  rw [hx] at hresult
  cases x with
  | finite negative m =>
      obtain ⟨y, hy, heq⟩ := Option.map_eq_some_iff.1 hresult
      exact hy.trans heq
  | infinite negative => cases hfinite
  | nan => cases hfinite

theorem StepDocument.ofJson?_toJson {d : StepDocument} (h : d.IsReadBack) :
    ofJson? d.toJson = some d :=
  readWith?_toJson rfl h

theorem ExplainDocument.ofJson?_toJson {d : ExplainDocument} (h : d.IsReadBack) :
    ofJson? d.toJson = some d :=
  readWith?_toJson rfl h

/-! ### Texts -/

/-- A value that is written in a layout is there for whoever reads the text. -/
theorem JsonValue.IsRegular.bind_read?_write {α : Type} {v : JsonValue} (h : v.IsRegular)
    (layout : JsonLayout) (read : JsonValue → Option α) :
    (JsonValue.read? (v.write layout).toList).bind read = read v := by
  rw [h.read?_write, Option.bind_some]

/-- Each of the four documents is read back from both layouts. Of the numbers in it, nothing is
needed but that they are read back from their own numerals. -/
theorem read_write_documents (layout : JsonLayout) :
    (∀ d : ExplainDocument, d.IsReadBack →
      (JsonValue.read? (d.toJson.write layout).toList).bind ExplainDocument.ofJson? = some d) ∧
    (∀ d : ClassifyDocument,
      (JsonValue.read? (d.toJson.write layout).toList).bind ClassifyDocument.ofJson? = some d) ∧
    (∀ d : FailureDocument,
      (JsonValue.read? (d.toJson.write layout).toList).bind FailureDocument.ofJson? = some d) ∧
    ∀ d : StepDocument, d.IsReadBack →
      (JsonValue.read? (d.toJson.write layout).toList).bind StepDocument.ofJson? = some d := by
  refine ⟨fun d h => ?_, fun d => ?_, fun d => ?_, fun d h => ?_⟩
  · rw [d.isRegular_toJson.bind_read?_write, ExplainDocument.ofJson?_toJson h]
  · rw [d.isRegular_toJson.bind_read?_write, d.ofJson?_toJson]
  · rw [d.isRegular_toJson.bind_read?_write, d.ofJson?_toJson]
  · rw [d.isRegular_toJson.bind_read?_write, StepDocument.ofJson?_toJson h]

/-- A quotient that is no whole number, in a query with a quotation mark, a backslash and a control
character. -/
theorem read_write_documents_quotient :
    let third := (Binary64.ofNat 1).div (.neg (.ofNat 3))
    let step : StepDocument := ⟨2, "Compute", some "1 / -3 = -0.3333333333333333", some third⟩
    let d : ExplainDocument :=
      { input := "\"1\\\t/ -3\"", route := "binary_op", title := "Detailed steps for 1 / -3"
        steps := [step], finalResult := some third }
    d.IsReadBack ∧ step.IsReadBack ∧ ∀ layout,
      (JsonValue.read? (d.toJson.write layout).toList).bind ExplainDocument.ofJson? = some d ∧
      (JsonValue.read? (step.toJson.write layout).toList).bind StepDocument.ofJson? =
        some step := by
  intro third step d
  have hthird : third.IsReadBack := by decide +kernel
  have hstep : step.IsReadBack := ⟨by decide, fun x hx => Option.some.inj hx ▸ hthird⟩
  have hd : d.IsReadBack :=
    ⟨fun s hs => List.mem_singleton.1 hs ▸ hstep, fun x hx => Option.some.inj hx ▸ hthird⟩
  exact ⟨hd, hstep, fun layout =>
    ⟨(read_write_documents layout).1 d hd, (read_write_documents layout).2.2.2 step hstep⟩⟩

end Stepwise
