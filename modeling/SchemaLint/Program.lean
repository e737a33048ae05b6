import SchemaLint.Ancestry.Inquiry
import SchemaLint.Command.Reader
import SchemaLint.Listing
import SchemaLint.Mapping
import SchemaLint.Program.Failure
import SchemaLint.Program.Locator
import SchemaLint.Report.Document
import SchemaLint.Store.Directory
import SchemaLint.Validator

/-!
# The program

Each command reads its configuration, then what it works on, and changes a stored document as the
last thing that can fail. A command that fails says why; one that finds invalid lines fails without
a word of its own.
-/

namespace SchemaLint

namespace Program

variable {m : Type → Type} [Monad m]

/-- What may fail on a host. -/
abbrev Attempt (m : Type → Type) := ExceptT Failure m

/-- Does what may fail for a reason of its own. -/
def attempt {α ε : Type} (why : ε → Failure) (action : m (Except ε α)) : Attempt m α :=
  ExceptT.mk do return (← action).mapError why

/-- The configuration file of a project that names none. -/
def configFile : String := "scriptrefly.toml"

/-- The configuration of an invocation. -/
def loadConfig (h : Host m) (named : Option String) (isVerbose : Bool) : Attempt m Config := do
  let cwd ← h.cwd
  match named with
  | some path => attempt .config (Config.ofFile h.files cwd path)
  | none =>
    if ← h.files.isPresent configFile then attempt .config (Config.ofFile h.files cwd configFile)
    else
      if isVerbose then h.tellLine "No config file found, using defaults"
      return Config.default cwd

/-- What a command works with. -/
structure Session (m : Type → Type) where
  host : Host m
  config : Config
  isVerbose : Bool

namespace Session

/-- The place of the stored documents. -/
def backend (s : Session m) : Backend m :=
  DirectoryStore.backend s.host.files s.config.storePath

/-- Prints a message that is asked for by being verbose. -/
def detail (s : Session m) (message : String) : Attempt m Unit := do
  if s.isVerbose then s.host.tellLine message

/-- The text of a file that the user named. -/
def read (s : Session m) (file : String) : Attempt m String :=
  attempt (.unreadable file) (s.host.files.read file)

/-- Writes a document to a file that the user named, or prints it. -/
def write (s : Session m) (output : Option String) (document : String) : Attempt m Unit := do
  match output with
  | none => s.host.printLine document
  | some file =>
    attempt (.unwritable file) (s.host.files.write file document)
    s.host.tellLine ("Written to: " ++ file)

/-- The stored schema. -/
def schema (s : Session m) : Attempt m Schema :=
  attempt .schema (Schema.format.load s.backend)

/-- Stores the schema after an edit. -/
def editSchema (s : Session m) (current : Schema) (e : SchemaEdit) : Attempt m Unit := do
  let _ ← attempt .schema (Schema.format.edit s.backend (current.edit e))

/-- The stored rules. -/
def rules (s : Session m) : Attempt m RuleTable :=
  attempt .rules (RuleTable.openStore s.backend)

/-- Stores the rules after an edit. -/
def editRules (s : Session m) (current : RuleTable) (e : RuleEdit) : Attempt m RuleTable :=
  attempt .rules (RuleTable.format.edit s.backend (current.edit e))

/-- Stores an extracted table. -/
def saveTable (s : Session m) (name : String) (dialect : Option Dialect) (fields : List Field) :
    Attempt m Unit := do
  let dialect := dialect.getD s.config.dialect
  s.host.print (Listing.table name (.ofFields dialect fields))
  let current ← s.schema
  s.editSchema current (.upsert name dialect fields)
  let verb := if (current.get? name).isSome then "Updated" else "Saved"
  s.host.tellLine ("✓ " ++ verb ++ " " ++ name)

/-- Where sources of the ancestors of a class are looked for: near its own file first. -/
def locator (s : Session m) (file : String) (asks : Bool) : Locator :=
  { directories := ((Path.parent? file).filter (· != "")).toList ++
      s.config.searchDirectories.map s.config.resolve
    asks := s.config.prompts && asks }

/-- Extracts the table of a class. -/
def extractClass (s : Session m) (file : String) (table : Option String) (dialect : Option Dialect)
    (asks : Bool) : Attempt m Unit := do
  let source ← s.read file
  s.detail ("Extracting fields from: " ++ file)
  let resolution ← AncestorWalk.resolve (m := m) ((s.locator file asks).locate s.host) source
    s.config.maxDepth AncestorWalk.defaultMaxAttempts
  for warning in resolution.warnings do
    s.host.tellLine ("warning: " ++ warning.message)
  if resolution.fields.isEmpty then throw (.noFields file)
  if !resolution.ancestors.isEmpty then
    s.detail ("Inherited from: " ++ ", ".intercalate resolution.ancestors)
  match table.or resolution.className with
  | none => throw (.noClassName file)
  | some name => s.saveTable name dialect resolution.fields

/-- Extracts the table of a mapping. -/
def extractMapping (s : Session m) (file table : String) (dialect : Option Dialect) :
    Attempt m Unit := do
  let fields := Mapping.fields (← s.read file)
  if fields.isEmpty then throw (.noBindings file)
  s.saveTable table dialect fields

/-- Judges a script and tells whether it has no invalid lines. -/
def validate (s : Session m) (file : String) (dialect : Option Dialect) (output : Option String) :
    Attempt m Bool := do
  let script ← s.read file
  let dialect := dialect.getD s.config.dialect
  let schema ← s.schema
  let rules ← s.rules
  if schema.tables.isEmpty then
    s.host.tellLine
      "No table schemas stored; run 'scriptrefly extract' or 'scriptrefly schema import' first"
  s.detail ("Validating " ++ file ++ " as " ++ dialect.name)
  let v := Validator.ofTable dialect schema rules s.config.structuralChecks
  for (kind, id) in v.rules.skipped do
    s.host.tellLine
      ("warning: rule " ++ id ++ " (" ++ kind.name ++ ") skipped: its pattern cannot be compiled")
  let report := Report.ofDiagnostics (← s.host.now) dialect (v.validate script) (some file)
  match output with
  | none => pure ()
  | some path =>
    attempt .report (s.host.files.write path report.toDocument)
    s.detail ("Report saved to: " ++ path)
  s.host.print (Listing.report s.isVerbose report)
  return !report.hasInvalidLines

/-- Looks at or changes the stored rules. -/
def runRules (s : Session m) (command : RulesCommand) : Attempt m Unit := do
  let current ← s.rules
  match command with
  | .list dialect kind asJson =>
    let listed := Listing.placedRules current dialect kind
    if asJson then s.host.printLine (Listing.rulesDocument listed)
    else s.host.print (Listing.rules listed)
  | .write output => s.write output current.toDocument
  | .replace file =>
    let t ← attempt .rules (RuleTable.format.replace s.backend (← s.read file))
    s.host.tellLine ("✓ Imported " ++ toString t.size ++ " rules")
  | .reset =>
    let t ← s.editRules current .reset
    s.host.tellLine ("✓ Restored " ++ toString t.size ++ " built-in rules")
  | .add dialect kind rule =>
    let _ ← s.editRules current (.add dialect kind rule)
    s.host.tellLine ("✓ Added rule " ++ rule.id ++ " to " ++ dialect.name ++ "/" ++ kind.name)
  | .remove dialect kind id =>
    let _ ← s.editRules current (.remove dialect kind id)
    let name := ((current.find? dialect kind id).map (·.name)).getD ""
    s.host.tellLine ("✓ Removed rule " ++ id ++ " (" ++ name ++ ")")

/-- Looks at or changes the stored tables. -/
def runSchema (s : Session m) (command : SchemaCommand) : Attempt m Unit := do
  let current ← s.schema
  match command with
  | .list => s.host.print (Listing.schema current)
  | .describe name =>
    match current.get? name with
    | none => throw (.tableNotStored name)
    | some t => s.host.print (Listing.table name t)
  | .write output => s.write output current.toDocument
  | .replace file =>
    let imported ← attempt .schema (Schema.format.replace s.backend (← s.read file))
    s.host.tellLine ("✓ Imported " ++ toString imported.size ++ " tables")
  | .remove name =>
    s.editSchema current (.remove name)
    s.host.tellLine ("✓ Removed " ++ name)

/-- Runs a command and tells whether all is well with what it looked at. -/
def run (s : Session m) : Command → Attempt m Bool
  | .extractClass file table dialect asks => do
    s.extractClass file table dialect asks
    return true
  | .extractMapping file table dialect => do
    s.extractMapping file table dialect
    return true
  | .validate file dialect output => s.validate file dialect output
  | .rules command => do
    s.runRules command
    return true
  | .schema command => do
    s.runSchema command
    return true

end Session

/-- Runs what is asked for. -/
def invoke (h : Host m) (i : Invocation) : Attempt m Bool := do
  let config ← loadConfig h i.config i.isVerbose
  let s : Session m := { host := h, config, isVerbose := i.isVerbose }
  s.detail ("Using store: " ++ config.storePath)
  s.run i.command

/-- The name and the version of the program. -/
def version : String := "scriptrefly 0.1.0"

/-- How the program is called. -/
def help : String :=
  "Schema-aware checks for MySQL and MongoDB scripts\n\n" ++
  "Usage: scriptrefly [-c CONFIG] [-v] COMMAND\n\n" ++
  "Commands:\n" ++
  "  extract java FILE [-t TABLE] [-d DIALECT] [--no-prompt]\n" ++
  "  extract mybatis FILE -t TABLE [-d DIALECT]\n" ++
  "  validate SCRIPT [-d DIALECT] [-o OUTPUT]\n" ++
  "  rules list [-d DIALECT] [-k KIND] [--json]\n" ++
  "  rules export [-o OUTPUT]\n" ++
  "  rules import FILE\n" ++
  "  rules reset\n" ++
  "  rules add -d DIALECT -k KIND --id ID --name NAME --pattern PATTERN --message MESSAGE\n" ++
  "    [--severity SEVERITY] [--description DESCRIPTION]\n" ++
  "  rules remove -d DIALECT -k KIND ID\n" ++
  "  schema list\n" ++
  "  schema show TABLE\n" ++
  "  schema export [-o OUTPUT]\n" ++
  "  schema import FILE\n" ++
  "  schema remove TABLE"

/-- How a run ends. -/
inductive Exit where
  | success
  | failure
  /-- The arguments are not understood. -/
  | misuse
  deriving DecidableEq, Repr

/-- The number that tells how a run ended. -/
def Exit.code : Exit → Nat
  | success => 0
  | failure => 1
  | misuse => 2

/-- Runs the program with arguments. -/
def run (h : Host m) (args : List String) : m Exit := do
  match Invocation.read args with
  | .error (.answer flag) =>
    h.printLine (if flag == Command.versionFlag.long then version else help)
    return .success
  | .error .misuse =>
    h.tellLine help
    return .misuse
  | .ok i =>
    match ← (invoke h i).run with
    | .ok true => return .success
    | .ok false => return .failure
    | .error e =>
      h.tellLine ("Error: " ++ e.message)
      return .failure

end Program

end SchemaLint
