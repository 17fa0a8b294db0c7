import Stepwise.CommandLine.Run
import Stepwise.Proofs.CommandLines
import Stepwise.Proofs.Json.Numbers
import Stepwise.Proofs.Reports

set_option autoImplicit false

/-! # Answers in JSON

A command that answers with a document prints one document and nothing else, whatever the state of
the settings file. If the file was named and cannot be used, the document tells of the failure,
with the reason of the system or of the library that reads settings, and the exit code is one
(`SettingsFail`). Otherwise the settings are the ones of the file that was named, or of the default
file, or the default ones (`RunsUnder`), and the document is the one of the outcome under these
settings (`document_commands_answer`).
-/

namespace Stepwise

/-! ## Settings -/

section

variable (wording : Wording) (files : Files)

/-- The file has the settings for its content. -/
def HoldsSettings (path : String) (settings : Settings) : Prop :=
  ∃ content, files path = .ok content ∧ Settings.read? content.toList = some settings

/-- The settings of a run: of the file that was named, or of the default file if it has some, or
else the default ones. -/
inductive RunsUnder : Option String → Settings → Prop
  | named {path : String} {settings : Settings} (h : HoldsSettings files path settings) :
      RunsUnder (some path) settings
  | found {settings : Settings} (h : HoldsSettings files defaultSettingsFile settings) :
      RunsUnder none settings
  | unfound (h : ∀ settings, ¬ HoldsSettings files defaultSettingsFile settings) :
      RunsUnder none {}

/-- The file that was named cannot be read, or has no settings for its content, and what is said
about it. -/
inductive SettingsFail : Option String → String → Prop
  | unreadable {path : String} {cause : FileError} (h : files path = .error cause) :
      SettingsFail (some path) ("reading config file " ++ path ++ ": " ++ cause.message)
  | invalid {path content : String} (h : files path = .ok content)
      (hread : Settings.read? content.toList = none) :
      SettingsFail (some path)
        ("parsing config file " ++ path ++ ": " ++ wording.settingsReason content)

variable {wording files} {config : Option String}

theorem RunsUnder.loadSettings_eq {settings : Settings} (h : RunsUnder files config settings) :
    loadSettings wording files config = .ok settings := by
  cases h with
  | named h =>
      obtain ⟨content, hcontent, hread⟩ := h
      simp only [loadSettings, hcontent, hread]
  | found h =>
      obtain ⟨content, hcontent, hread⟩ := h
      simp only [loadSettings, hcontent, hread, Option.getD_some]
  | unfound h =>
      cases hcontent : files defaultSettingsFile with
      | error cause => simp only [loadSettings, hcontent]
      | ok content =>
          have hread : Settings.read? content.toList = none :=
            Option.eq_none_iff_forall_ne_some.2 fun settings hread =>
              h settings ⟨content, hcontent, hread⟩
          simp only [loadSettings, hcontent, hread, Option.getD_none]

theorem SettingsFail.loadSettings_eq {message : String}
    (h : SettingsFail wording files config message) :
    ∃ cause, loadSettings wording files config = .error cause ∧ cause.message = message := by
  cases h with
  | @unreadable path cause h =>
      exact ⟨.unreadable path cause, by simp only [loadSettings, h], rfl⟩
  | @invalid path content h hread =>
      exact ⟨.invalid path (wording.settingsReason content),
        by simp only [loadSettings, h, hread], rfl⟩

/-- A run has settings, or fails to have them. -/
theorem exists_settings_or_fail (wording : Wording) (files : Files) (config : Option String) :
    (∃ settings, RunsUnder files config settings) ∨
      ∃ message, SettingsFail wording files config message := by
  cases config with
  | none =>
      by_cases h : ∃ settings, HoldsSettings files defaultSettingsFile settings
      · obtain ⟨settings, h⟩ := h
        exact .inl ⟨settings, .found h⟩
      · exact .inl ⟨{}, .unfound fun settings hsettings => h ⟨settings, hsettings⟩⟩
  | some path =>
      cases hcontent : files path with
      | error cause => exact .inr ⟨_, .unreadable hcontent⟩
      | ok content =>
          cases hread : Settings.read? content.toList with
          | none => exact .inr ⟨_, .invalid hcontent hread⟩
          | some settings => exact .inl ⟨settings, .named ⟨content, hcontent, hread⟩⟩

end

/-! ## Printed documents -/

/-- The output is the text of one object and the end of its line, and nothing else. -/
def PrintsDocument (output : String) (v : JsonValue) : Prop :=
  ∃ text, output = text ++ "\n" ∧ JsonValue.read? text.toList = some v ∧
    text.toList.getLast? = some '\x7d'

theorem getLast?_write_object (members : List (JsonString × JsonValue)) :
    ((JsonValue.object members).write .indented).toList.getLast? = some '\x7d' := by
  rw [JsonValue.write, String.toList_ofList]
  cases members with
  | nil => rfl
  | cons first rest => rw [JsonValue.indented, List.getLast?_concat]

theorem printsDocument_object {members : List (JsonString × JsonValue)}
    (h : (JsonValue.object members).IsRegular) :
    PrintsDocument (printDocument (.object members)) (.object members) :=
  ⟨_, rfl, h.read?_write .indented, getLast?_write_object members⟩

/-! ## The numbers of an outcome -/

/-- The only number in the document of an outcome is the value of its last step. -/
theorem ExplainDocument.isReadWith_ofOutcome {number? : JsonValue → Option Binary64}
    (query : String) {o : Outcome} {last : Step} (hends : o.trace.EndsWith last)
    (hlength : o.trace.steps.length ≤ JsonNumeral.maxWord)
    (hread : ∀ x ∈ (ofOutcome query o).finalResult, number? (.ofBinary64 x) = some x) :
    (ofOutcome query o).IsReadWith number? := by
  have hcovers := (reports_ofOutcome query o).covers
  rw [hcovers.finalResult] at hread
  refine ⟨fun step hstep => ?_, by rwa [hcovers.finalResult]⟩
  rw [hcovers.steps, List.mem_mapIdx] at hstep
  obtain ⟨i, hi, rfl⟩ := hstep
  refine ⟨Nat.le_trans (Nat.succ_le_of_lt hi) hlength, fun x hx => ?_⟩
  -- the steps in front of the last one carry no number
  rcases hends.isLeading_or_eq (List.getElem_mem hi) with hleading | hlast
  · rw [hleading.valueless] at hx
    cases hx
  · rw [hlast, ← hends.finalResult_eq] at hx
    exact hread x hx

/-! ## Answers -/

/-- The document of the query under the settings. -/
def explainDocument (settings : Settings) (query : String) : ExplainDocument :=
  .ofOutcome query (Explainer.run { limits := settings.limits } query)

/-- The document is read back from its JSON form. The numbers come back if the nearest ones are
taken. With the short rule for numbers the document comes back exactly if its final result does. -/
theorem explainDocument_read (settings : Settings) (query : String) :
    let d := explainDocument settings query
    ExplainDocument.readWith? JsonValue.nearest? d.toJson = some d ∧
      (ExplainDocument.ofJson? d.toJson = some d ↔ ∀ x ∈ d.finalResult, x.IsReadBack) := by
  have hanswers := answers_run { limits := settings.limits } query
  obtain ⟨last, hends⟩ := hanswers.exists_endsWith rfl
  have hlength := (hanswers.length_le rfl).trans (by decide : 5 ≤ JsonNumeral.maxWord)
  have hfinite : ∀ x ∈ (explainDocument settings query).finalResult, x.isFinite = true := by
    rw [explainDocument, (ExplainDocument.reports_ofOutcome query _).covers.finalResult]
    exact (hanswers.reportsFinite (outlineTopic_reportsFinite query)).final
  refine ⟨?_, ?_⟩
  · exact ExplainDocument.readWith?_toJson rfl <|
      ExplainDocument.isReadWith_ofOutcome query hends hlength fun x hx =>
        nearest?_ofBinary64 (hfinite x hx)
  · rw [ExplainDocument.ofJson?]
    exact ⟨fun h x hx => ExplainDocument.finalResult_of_readWith? h hx (hfinite x hx),
      fun h => ExplainDocument.readWith?_toJson rfl <|
        ExplainDocument.isReadWith_ofOutcome query hends hlength h⟩

/-- The short rule takes the numeral of `1 - 0.0000000000000001` for one. -/
example : ¬ ((Binary64.ofNat 1).sub (Decimal.toBinary64 false ⟨1, -16⟩)).IsReadBack := by
  decide +kernel

namespace DocumentCommand

/-- The value is the document that the command answers with under the settings. -/
def IsAnswer (settings : Settings) (query : String) (v : JsonValue) : DocumentCommand → Prop
  | .explain | .explainJson =>
      let d := explainDocument settings query
      ExplainDocument.readWith? JsonValue.nearest? v = some d ∧
        (ExplainDocument.ofJson? v = some d ↔ ∀ x ∈ d.finalResult, x.IsReadBack)
  | .classify => ClassifyDocument.ofJson? v = some (.ofQuery query)

/-- The command prints one document. It tells of a failure of the settings, or else it is the
answer under the settings of the run. -/
structure IsAnswered (c : DocumentCommand) (query : String) (config : Option String)
    (wording : Wording) (files : Files) (answer : Answer) (v : JsonValue) : Prop where
  prints : PrintsDocument answer.output v
  failed : ∀ message, SettingsFail wording files config message → answer.exitCode = 1 ∧
    FailureDocument.ofJson? v = some { ok := false, error := message, input := some query }
  answered : ∀ settings, RunsUnder files config settings → answer.exitCode = 0 ∧
    c.IsAnswer settings query v

/-- The JSON form of the document. -/
def json (settings : Settings) (query : String) : DocumentCommand → JsonValue
  | explain | explainJson => (explainDocument settings query).toJson
  | classify => (ClassifyDocument.ofQuery query).toJson

theorem isAnswer_json (c : DocumentCommand) (settings : Settings) (query : String) :
    c.IsAnswer settings query (c.json settings query) := by
  cases c with
  | explain => exact explainDocument_read settings query
  | explainJson => exact explainDocument_read settings query
  | classify => exact ClassifyDocument.ofJson?_toJson _

theorem printsDocument_json (c : DocumentCommand) (settings : Settings) (query : String) :
    PrintsDocument (printDocument (c.json settings query)) (c.json settings query) := by
  cases c with
  | explain => exact printsDocument_object (explainDocument settings query).isRegular_toJson
  | explainJson => exact printsDocument_object (explainDocument settings query).isRegular_toJson
  | classify => exact printsDocument_object (ClassifyDocument.ofQuery query).isRegular_toJson

section

variable {c : DocumentCommand} {query : String} {config : Option String} {wording : Wording}
  {files : Files}

theorem run_of_ok {settings : Settings} (h : loadSettings wording files config = .ok settings)
    (input : Text) : (⟨c.command query, config⟩ : Invocation).run wording files input =
      { exitCode := 0, output := printDocument (c.json settings query) } := by
  simp only [Invocation.run, h]
  cases c <;> rfl

theorem run_of_error {cause : SettingsError} (h : loadSettings wording files config = .error cause)
    (input : Text) : (⟨c.command query, config⟩ : Invocation).run wording files input =
      { exitCode := 1
        output := printDocument
          (FailureDocument.toJson { error := cause.message, input := some query }) } := by
  have hquery : (c.command query).jsonQuery? = some query :=
    Command.jsonQuery?_eq_some_iff.2 ⟨c, rfl⟩
  simp only [Invocation.run, h, settingsFailure, hquery]

end

section

variable (query : String) (config : Option String) (wording : Wording) (files : Files)
  (input : Text)

/-- Every run of such a command prints one document. -/
theorem exists_isAnswered (c : DocumentCommand) :
    ∃ v, c.IsAnswered query config wording files
      ((⟨c.command query, config⟩ : Invocation).run wording files input) v := by
  cases hload : loadSettings wording files config with
  | error cause =>
      rw [run_of_error hload]
      let failure : FailureDocument := { error := cause.message, input := some query }
      refine ⟨failure.toJson, printsDocument_object failure.isRegular_toJson,
        fun message hfail => ⟨rfl, ?_⟩, fun settings hsettings => ?_⟩
      · obtain ⟨other, hother, hmessage⟩ := hfail.loadSettings_eq
        obtain rfl : cause = other := Except.error.inj (hload.symm.trans hother)
        exact hmessage ▸ failure.ofJson?_toJson
      · rw [hsettings.loadSettings_eq] at hload
        cases hload
  | ok settings =>
      rw [run_of_ok hload]
      refine ⟨c.json settings query, c.printsDocument_json settings query,
        fun message hfail => ?_, fun other hother => ⟨rfl, ?_⟩⟩
      · obtain ⟨_, hother, -⟩ := hfail.loadSettings_eq
        rw [hother] at hload
        cases hload
      · obtain rfl : settings = other :=
          Except.ok.inj (hload.symm.trans hother.loadSettings_eq)
        exact c.isAnswer_json settings query

/-- The two commands that explain answer alike. -/
theorem run_explain_eq :
    (⟨explain.command query, config⟩ : Invocation).run wording files input =
      (⟨explainJson.command query, config⟩ : Invocation).run wording files input := by
  cases hload : loadSettings wording files config with
  | error cause => rw [run_of_error hload, run_of_error hload]
  | ok settings =>
      rw [run_of_ok hload, run_of_ok hload]
      rfl

end

end DocumentCommand

/-- A command line that is read as a command with a document prints one document, which tells of
the settings if they fail and else is the answer under the settings, and one of the two is the case.
The two commands that explain print the same. The plain command lines are read so exactly if nothing
in them looks like an option, and every query is read behind two dashes. -/
theorem document_commands_answer :
    (∀ (arguments : List String) (c : DocumentCommand) (query : String) (config : Option String)
      (wording : Wording) (files : Files) (input : Text),
      Invocation.read arguments = .ok ⟨c.command query, config⟩ →
        (∃ v, c.IsAnswered query config wording files
          (runCommandLine arguments wording files input) v) ∧
        ((∃ settings, RunsUnder files config settings) ∨
          ∃ message, SettingsFail wording files config message)) ∧
    (∀ (arguments others : List String) (query : String) (config : Option String)
      (wording : Wording) (files : Files) (input : Text),
      Invocation.read arguments = .ok ⟨DocumentCommand.explain.command query, config⟩ →
      Invocation.read others = .ok ⟨DocumentCommand.explainJson.command query, config⟩ →
        runCommandLine arguments wording files input =
          runCommandLine others wording files input) ∧
    ∀ (c : DocumentCommand) (query : String) (config : Option String),
      (∀ i, Invocation.read (configArguments config ++ c.arguments query) = .ok i ↔
        (∀ path ∈ config, IsOperand path ∧ path ≠ "") ∧ IsOperand query ∧
          i = ⟨c.command query, config⟩) ∧
      ((∀ path ∈ config, IsOperand path ∧ path ≠ "") →
        Invocation.read (configArguments config ++ c.dashedArguments query) =
          .ok ⟨c.command query, config⟩) := by
  refine ⟨fun arguments c query config wording files input hread => ⟨?_, ?_⟩,
    fun arguments others query config wording files input harguments hothers => ?_,
    fun c query config => ⟨read_arguments_iff c config query, read_dashedArguments c query⟩⟩
  · rw [runCommandLine, hread]
    exact c.exists_isAnswered query config wording files input
  · exact exists_settings_or_fail wording files config
  · rw [runCommandLine, runCommandLine, harguments, hothers]
    exact DocumentCommand.run_explain_eq query config wording files input

/-- A radicand over the limit of the settings file, in both commands that explain, and a settings
file that is not there. Nothing from outside is quoted. -/
theorem document_commands_answer_limited :
    let wording : Wording := ⟨fun _ => "unknown field", fun _ => "Usage"⟩
    let files : Files := fun path =>
      if path = "limits.toml" then .ok "max_radicand = 100\n" else .error .notFound
    let run := fun arguments => runCommandLine arguments wording files []
    let explain := ["--config", "limits.toml", "explain", "sqrt(121)", "--format", "json"]
    let explainJson := ["--config", "limits.toml", "explain-json", "--", "sqrt(121)"]
    let missing := ["--config", "missing.toml", "classify", "sqrt(121)", "--format", "json"]
    (run explain).exitCode = 0 ∧
    (∃ v, PrintsDocument (run explain).output v ∧
      DocumentCommand.explain.IsAnswer { limits := { maxRadicand := 100 } } "sqrt(121)" v) ∧
    run explain = run explainJson ∧
    (run missing).exitCode = 1 ∧
    ∃ v, PrintsDocument (run missing).output v ∧ FailureDocument.ofJson? v = some
      { ok := false
        error := "reading config file missing.toml: No such file or directory (os error 2)"
        input := some "sqrt(121)" } := by
  intro wording files run explain explainJson missing
  have hlimits : ∀ path ∈ some "limits.toml", IsOperand path ∧ path ≠ "" := by decide
  have hexplain := ((document_commands_answer.2.2 .explain "sqrt(121)" (some "limits.toml")).1
    ⟨.explain "sqrt(121)" .json, some "limits.toml"⟩).2 ⟨hlimits, by decide, rfl⟩
  have hexplainJson := (document_commands_answer.2.2 .explainJson "sqrt(121)"
    (some "limits.toml")).2 hlimits
  have hclassify := ((document_commands_answer.2.2 .classify "sqrt(121)" (some "missing.toml")).1
    ⟨.classify "sqrt(121)" .json, some "missing.toml"⟩).2 ⟨by decide, by decide, rfl⟩
  have hsettings : RunsUnder files (some "limits.toml") { limits := { maxRadicand := 100 } } :=
    .named ⟨_, rfl, by decide⟩
  have hfail : SettingsFail wording files (some "missing.toml")
      ("reading config file " ++ "missing.toml" ++ ": " ++ FileError.notFound.message) :=
    .unreadable rfl
  obtain ⟨⟨v, hv⟩, -⟩ := document_commands_answer.1 _ .explain _ _ wording files [] hexplain
  obtain ⟨⟨w, hw⟩, -⟩ := document_commands_answer.1 _ .classify _ _ wording files [] hclassify
  obtain ⟨hexit, hmessage⟩ := hw.failed _ hfail
  exact ⟨(hv.answered _ hsettings).1, ⟨v, hv.prints, (hv.answered _ hsettings).2⟩,
    document_commands_answer.2.1 _ _ _ _ wording files [] hexplain hexplainJson, hexit, w,
    hw.prints, hmessage⟩

end Stepwise
