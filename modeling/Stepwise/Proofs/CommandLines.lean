import Stepwise.CommandLine.Arguments
import Stepwise.Proofs.Scanning

set_option autoImplicit false

/-! # Command lines that ask for a document

Three commands answer with a document. Written out with the options in the usual places, such a
command is accepted exactly when neither the query nor the path of the settings looks like an option
(`read_arguments_iff`). Behind two dashes every query is accepted (`read_dashedArguments`).
-/

namespace Stepwise

/-! ## Operands -/

/-- The argument does not look like an option: it starts with no dash, or is a dash alone. -/
def IsOperand (argument : String) : Prop := argument.toList.head? ≠ some '-' ∨ argument = "-"

instance (argument : String) : Decidable (IsOperand argument) :=
  inferInstanceAs (Decidable (_ ∨ _))

theorem exists_of_not_isOperand {argument : String} (h : ¬ IsOperand argument) :
    ∃ letter rest, argument.toList = '-' :: letter :: rest := by
  rw [IsOperand, not_or, not_not] at h
  obtain ⟨rest, hchars⟩ := List.head?_eq_some_iff.1 h.1
  cases rest with
  | nil => exact absurd (String.toList_inj.1 hchars) h.2
  | cons letter rest => exact ⟨letter, rest, hchars⟩

namespace Argument

theorem ofString_of_isOperand {argument : String} (h : IsOperand argument) :
    ofString argument = .operand argument := by
  rcases h with h | rfl
  · unfold ofString
    split
    · next heq => simp [heq] at h
    · next heq => simp [heq] at h
    · next heq => simp [heq] at h
    · rfl
  · decide

/-- What looks like an option is no value. -/
theorem value?_ofString_of_not_isOperand {argument : String} (h : ¬ IsOperand argument) :
    (ofString argument).value? = none := by
  obtain ⟨letter, rest, hchars⟩ := exists_of_not_isOperand h
  unfold ofString
  rw [hchars]
  split
  · rfl
  · dsimp only
    split <;> rfl
  · rfl
  · next hletters => exact absurd rfl (hletters letter rest)

theorem value?_ofString_of_isOperand {argument : String} (h : IsOperand argument) :
    (ofString argument).value? = some argument := by
  rw [ofString_of_isOperand h]
  rfl

end Argument

/-! ## The commands -/

/-- The commands that answer with a document. -/
inductive DocumentCommand
  | explain
  | explainJson
  | classify
  deriving DecidableEq, Repr

namespace DocumentCommand

/-- The command with its query. -/
def command : DocumentCommand → String → Command
  | explain, query => .explain query .json
  | explainJson, query => .explainJson query
  | classify, query => .classify query .json

/-- The name of the command. -/
def name : DocumentCommand → String
  | explain => "explain"
  | explainJson => "explain-json"
  | classify => "classify"

/-- The format that has to be asked for. -/
def format? : DocumentCommand → Option OutputFormat
  | explain | classify => some .json
  | explainJson => none

/-- The options that ask for it. -/
def options (c : DocumentCommand) : List String :=
  if c.format? = none then [] else ["--format", "json"]

/-- What the command takes. -/
def shape : DocumentCommand → CommandShape
  | explain => ⟨true, true, .explain⟩
  | explainJson => ⟨true, false, fun query _ => .explainJson query⟩
  | classify => ⟨true, true, .classify⟩

/-- The arguments of the command, its query in front of its options. -/
def arguments (c : DocumentCommand) (query : String) : List String := c.name :: query :: c.options

/-- The arguments of the command, its query behind two dashes. -/
def dashedArguments (c : DocumentCommand) (query : String) : List String :=
  c.name :: (c.options ++ ["--", query])

end DocumentCommand

theorem Command.jsonQuery?_eq_some_iff {command : Command} {query : String} :
    command.jsonQuery? = some query ↔ ∃ c : DocumentCommand, command = c.command query := by
  constructor
  · intro h
    unfold jsonQuery? at h
    split at h
    · cases h
      exact ⟨.explain, rfl⟩
    · cases h
      exact ⟨.explainJson, rfl⟩
    · cases h
      exact ⟨.classify, rfl⟩
    · cases h
  · rintro ⟨c, rfl⟩
    cases c <;> rfl

/-- The option that names the settings file. -/
def configArguments : Option String → List String
  | none => []
  | some path => ["--config", path]

/-! ## Reading them -/

theorem readInvocation_config (path : String) (rest : List String) :
    readInvocation none ("--config" :: path :: rest) =
      if IsOperand path ∧ path ≠ "" then readInvocation (some path) rest else .error .misuse := by
  have hconfig : Argument.ofString "--config" = .long "config" none := by decide
  rw [readInvocation, hconfig]
  dsimp only
  rw [if_pos rfl]
  by_cases hpath : IsOperand path
  · rw [Argument.value?_ofString_of_isOperand hpath]
    by_cases hempty : path = ""
    · rw [configPath, if_pos hempty, if_neg fun h => h.2 hempty]
      rfl
    · rw [configPath, if_neg hempty, if_pos ⟨hpath, hempty⟩]
      rfl
  · rw [Argument.value?_ofString_of_not_isOperand hpath, if_neg fun h => hpath h.1]
    rfl

namespace CommandArguments

variable {shape : CommandShape} {rest : List String}

/-- The arguments hold no query, wherever they stand behind another argument. -/
structure HoldNoQuery (shape : CommandShape) (rest : List String) : Prop where
  options : ∀ a b, read shape a rest = .ok b → b.query = a.query
  operands : ∀ b, addOperands shape {} rest = .ok b → b.query = none
  head : ∀ next tail, rest = next :: tail → ¬ IsOperand next

theorem read_format (hformat : shape.takesFormat = true) (a : CommandArguments)
    (rest : List String) :
    read shape a ("--format" :: "json" :: rest) =
      formatValue a.format (some "json") >>= fun format =>
        read shape { a with format := some format } rest := by
  have hname : Argument.ofString "--format" = .long "format" none := by decide
  have hvalue : (Argument.ofString "json").value? = some "json" := by decide
  rw [read, hname]
  dsimp only
  rw [if_neg (by decide), if_pos ⟨rfl, hformat⟩, hvalue]

theorem holdNoQuery_nil : HoldNoQuery shape [] where
  options a b h := by
    cases h
    rfl
  operands b h := by
    cases h
    rfl
  head next tail h := by cases h

theorem holdNoQuery_format (hformat : shape.takesFormat = true) :
    HoldNoQuery shape ["--format", "json"] where
  options a b h := by
    rw [read_format hformat] at h
    obtain ⟨_, -, h⟩ := exists_ok_of_bind_eq_ok h
    cases h
    rfl
  operands b h := by
    -- these would be two operands
    obtain ⟨c, hc, h⟩ := exists_ok_of_bind_eq_ok h
    obtain ⟨d, hd, -⟩ := exists_ok_of_bind_eq_ok h
    have hquery : c.query = some "--format" := by
      unfold addOperand at hc
      split at hc <;> cases hc
      rfl
    simp [addOperand, hquery] at hd
  head next tail h := by
    cases h
    decide

/-- An argument that looks like an option is not taken as the query. -/
theorem query_eq_none_of_read (hrest : HoldNoQuery shape rest) {argument : String}
    (hargument : ¬ IsOperand argument) {b : CommandArguments}
    (h : read shape {} (argument :: rest) = .ok b) : b.query = none := by
  have hnone := Argument.value?_ofString_of_not_isOperand hargument
  -- whatever the argument is, reading stops or goes on behind it, where no query is held
  rw [read] at h
  split at h
  · next heq =>
      rw [heq] at hnone
      cases hnone
  · exact hrest.operands b h
  · obtain ⟨-, -, h⟩ := exists_ok_of_bind_eq_ok h
    exact hrest.options _ b h
  · split at h
    · split at h
      · obtain ⟨_, -, h⟩ := exists_ok_of_bind_eq_ok h
        exact hrest.options _ b h
      · next following tail _ =>
          rw [Argument.value?_ofString_of_not_isOperand (hrest.head following tail rfl)] at h
          cases h
      · cases h
    · split at h
      · split at h
        · obtain ⟨_, -, h⟩ := exists_ok_of_bind_eq_ok h
          exact hrest.options _ b h
        · next following tail _ =>
            rw [Argument.value?_ofString_of_not_isOperand (hrest.head following tail rfl)] at h
            cases h
        · cases h
      · split at h
        · cases h
        · split at h
          · exact hrest.options _ b h
          · split at h <;> cases h

end CommandArguments

/-- With nothing but options behind it, the query is the argument behind the name of the command. -/
theorem readCommand_eq_ok_iff {shape : CommandShape} {rest : List String}
    (htakes : shape.takesQuery = true) (hrest : CommandArguments.HoldNoQuery shape rest)
    {config : Option String}
    {query : String} {i : Invocation} :
    readCommand config shape (query :: rest) = .ok i ↔ IsOperand query ∧
      ∃ b, CommandArguments.read shape { query := some query } rest = .ok b ∧
        i = ⟨shape.build query (b.format.getD .text), b.config.or config⟩ := by
  by_cases hquery : IsOperand query
  · have hread : CommandArguments.read shape {} (query :: rest) =
        CommandArguments.read shape { query := some query } rest := by
      rw [CommandArguments.read, Argument.ofString_of_isOperand hquery]
      dsimp only
      rw [CommandArguments.addOperand, if_pos ⟨htakes, rfl⟩]
      rfl
    rw [readCommand, hread]
    constructor
    · intro h
      obtain ⟨b, hb, h⟩ := exists_ok_of_bind_eq_ok h
      rw [CommandArguments.command, hrest.options _ b hb] at h
      cases h
      exact ⟨hquery, b, hb, rfl⟩
    · rintro ⟨-, b, hb, rfl⟩
      rw [hb]
      show (b.command shape >>= _) = _
      rw [CommandArguments.command, hrest.options _ b hb]
      rfl
  · refine iff_of_false (fun h => ?_) fun h => hquery h.1
    obtain ⟨b, hb, h⟩ := exists_ok_of_bind_eq_ok h
    have hnone := CommandArguments.query_eq_none_of_read hrest hquery hb
    rw [CommandArguments.command, hnone] at h
    dsimp only at h
    rw [if_pos htakes] at h
    cases h

namespace DocumentCommand

open CommandArguments

variable (c : DocumentCommand) (config : Option String) (query : String)

theorem takesQuery_shape : c.shape.takesQuery = true := by
  cases c <;> rfl

theorem build_format : c.shape.build query (c.format?.getD .text) = c.command query := by
  cases c <;> rfl

theorem holdNoQuery_options : HoldNoQuery c.shape c.options := by
  cases c with
  | explain => exact holdNoQuery_format rfl
  | explainJson => exact holdNoQuery_nil
  | classify => exact holdNoQuery_format rfl

theorem read_options (query : Option String) (rest : List String) :
    CommandArguments.read c.shape { query } (c.options ++ rest) =
      CommandArguments.read c.shape { query, format := c.format? } rest := by
  cases c with
  | explain => exact read_format rfl _ rest
  | explainJson => rfl
  | classify => exact read_format rfl _ rest

theorem readInvocation_name (rest : List String) :
    readInvocation config (c.name :: rest) = readCommand config c.shape rest := by
  have hname : IsOperand c.name := by cases c <;> decide
  rw [readInvocation, Argument.ofString_of_isOperand hname]
  cases c <;> rfl

theorem readInvocation_arguments_iff (i : Invocation) :
    readInvocation config (c.arguments query) = .ok i ↔
      IsOperand query ∧ i = ⟨c.command query, config⟩ := by
  have hread := c.read_options (some query) []
  rw [List.append_nil] at hread
  rw [arguments, readInvocation_name,
    readCommand_eq_ok_iff c.takesQuery_shape c.holdNoQuery_options, hread]
  simp [CommandArguments.read, build_format]

theorem readInvocation_dashedArguments :
    readInvocation config (c.dashedArguments query) = .ok ⟨c.command query, config⟩ := by
  have hseparator : Argument.ofString "--" = .separator := by decide
  have hread : CommandArguments.read c.shape {} (c.options ++ ["--", query]) =
      .ok { query := some query, format := c.format? } := by
    rw [c.read_options none, CommandArguments.read, hseparator]
    dsimp only
    rw [addOperands, addOperand, if_pos ⟨c.takesQuery_shape, rfl⟩]
    rfl
  rw [dashedArguments, readInvocation_name, readCommand, hread, ← c.build_format]
  rfl

end DocumentCommand

/-- The commands are accepted exactly with a query and a path that do not look like options. -/
theorem read_arguments_iff (c : DocumentCommand) (config : Option String) (query : String)
    (i : Invocation) :
    Invocation.read (configArguments config ++ c.arguments query) = .ok i ↔
      (∀ path ∈ config, IsOperand path ∧ path ≠ "") ∧ IsOperand query ∧
        i = ⟨c.command query, config⟩ := by
  cases config with
  | none =>
      show readInvocation none (c.arguments query) = _ ↔ _
      rw [c.readInvocation_arguments_iff]
      simp
  | some path =>
      show readInvocation none ("--config" :: path :: c.arguments query) = _ ↔ _
      rw [readInvocation_config]
      by_cases hpath : IsOperand path ∧ path ≠ ""
      · rw [if_pos hpath, c.readInvocation_arguments_iff]
        simp [hpath]
      · rw [if_neg hpath]
        refine iff_of_false (fun h => by cases h) fun h => hpath (h.1 path rfl)

/-- Behind two dashes the commands are accepted with every query. -/
theorem read_dashedArguments (c : DocumentCommand) {config : Option String} (query : String)
    (hconfig : ∀ path ∈ config, IsOperand path ∧ path ≠ "") :
    Invocation.read (configArguments config ++ c.dashedArguments query) =
      .ok ⟨c.command query, config⟩ := by
  cases config with
  | none => exact c.readInvocation_dashedArguments none query
  | some path =>
      show readInvocation none ("--config" :: path :: c.dashedArguments query) = _
      rw [readInvocation_config, if_pos (hconfig path rfl), c.readInvocation_dashedArguments]

end Stepwise
