import SchemaLint.Command
import SchemaLint.Command.Arguments

/-!
# Reading commands

Commands stand within commands, up to three levels deep. What is set for all commands may be given
at any level; of several configuration files the one at the innermost level counts.
-/

namespace SchemaLint

namespace Command

/-- The flag that asks for the version. -/
def versionFlag : Flag :=
  { kind := .answer, long := "version", short? := some 'V' }

/-- The flags that every command takes. -/
def commonFlags : List Flag :=
  [{ kind := .value, long := "config", short? := some 'c' },
   { kind := .switch, long := "verbose", short? := some 'v' },
   { kind := .answer, long := "help", short? := some 'h' }]

/-- A flag with a value and a letter. -/
def short (c : Char) (long : String) : Flag :=
  { kind := .value, long, short? := some c }

/-- A flag with a value and no letter. -/
def long (long : String) : Flag :=
  { kind := .value, long, short? := none }

/-- A switch without a letter. -/
def switch (long : String) : Flag :=
  { kind := .switch, long, short? := none }

/-- The flags of a command beside the common ones. -/
def ownFlags : List String → List Flag
  | [] => [versionFlag]
  | ["extract", "java"] => [short 't' "table", short 'd' "dialect", switch "no-prompt"]
  | ["extract", "mybatis"] => [short 't' "table", short 'd' "dialect"]
  | ["validate"] => [short 'd' "dialect", short 'o' "output"]
  | ["rules", "list"] => [short 'd' "dialect", short 'k' "kind", switch "json"]
  | ["rules", "export"] => [short 'o' "output"]
  | ["rules", "add"] =>
    [short 'd' "dialect", short 'k' "kind", long "id", long "name", long "pattern", long "message",
     long "severity", long "description"]
  | ["rules", "remove"] => [short 'd' "dialect", short 'k' "kind"]
  | ["schema", "export"] => [short 'o' "output"]
  | _ => []

/-- The commands within a command. -/
def within : List String → List String
  | [] => ["extract", "validate", "rules", "schema"]
  | ["extract"] => ["java", "mybatis"]
  | ["rules"] => ["list", "export", "import", "reset", "add", "remove"]
  | ["schema"] => ["list", "show", "export", "import", "remove"]
  | _ => []

/-- What the command takes to which names lead. -/
def usage (names : List String) : Usage :=
  { flags := commonFlags ++ ownFlags names, commands := within names }

end Command

namespace Given

/-- A path, which cannot be empty. -/
def path? (s : String) : Option String :=
  if s == "" then none else some s

/-- What a flag that need not be given means. -/
def optional? {α : Type} (g : Given) (long : String) (read? : String → Option α) :
    Option (Option α) :=
  match g.value? long with
  | none => some none
  | some s => (read? s).map some

/-- What a flag that has to be given means. -/
def required? {α : Type} (g : Given) (long : String) (read? : String → Option α) : Option α :=
  g.value? long >>= read?

/-- The only word that is given. -/
def word? (g : Given) : Option String :=
  match g.words with
  | [word] => some word
  | _ => none

/-- The only word that is given, a path. -/
def wordPath? (g : Given) : Option String :=
  g.word? >>= path?

/-- Nothing, if no word is given. -/
def noWord? (g : Given) : Option Unit :=
  if g.words.isEmpty then some () else none

/-- The rule that is given. -/
def rule? (g : Given) : Option Rule := do
  return { id := ← g.value? "id"
           name := ← g.value? "name"
           description := (g.value? "description").getD ""
           pattern := ← g.value? "pattern"
           message := ← g.value? "message"
           severity := (← g.optional? "severity" Severity.read?).getD .error }

end Given

namespace Command

/-- The command to which names lead, with what is given to it. -/
def ofGiven? (names : List String) (g : Given) : Option Command := do
  match names with
  | ["extract", "java"] =>
    return .extractClass (← g.wordPath?) (g.value? "table")
      (← g.optional? "dialect" Dialect.read?) (!g.has "no-prompt")
  | ["extract", "mybatis"] =>
    return .extractMapping (← g.wordPath?) (← g.value? "table")
      (← g.optional? "dialect" Dialect.read?)
  | ["validate"] =>
    return .validate (← g.wordPath?) (← g.optional? "dialect" Dialect.read?)
      (← g.optional? "output" Given.path?)
  | ["rules", "list"] =>
    g.noWord?
    return .rules (.list (← g.optional? "dialect" Dialect.read?)
      (← g.optional? "kind" ValueKind.read?) (g.has "json"))
  | ["rules", "export"] =>
    g.noWord?
    return .rules (.write (← g.optional? "output" Given.path?))
  | ["rules", "import"] => return .rules (.replace (← g.wordPath?))
  | ["rules", "reset"] =>
    g.noWord?
    return .rules .reset
  | ["rules", "add"] =>
    g.noWord?
    return .rules (.add (← g.required? "dialect" Dialect.read?)
      (← g.required? "kind" ValueKind.read?) (← g.rule?))
  | ["rules", "remove"] =>
    return .rules (.remove (← g.required? "dialect" Dialect.read?)
      (← g.required? "kind" ValueKind.read?) (← g.word?))
  | ["schema", "list"] =>
    g.noWord?
    return .schema .list
  | ["schema", "show"] => return .schema (.describe (← g.word?))
  | ["schema", "export"] =>
    g.noWord?
    return .schema (.write (← g.optional? "output" Given.path?))
  | ["schema", "import"] => return .schema (.replace (← g.wordPath?))
  | ["schema", "remove"] => return .schema (.remove (← g.word?))
  | _ => none

/-- How deep commands stand within commands. -/
def levels : Nat := 3

/-- Reads the names that lead to a command and what is given at each level, the innermost first. -/
def readLevels :
    Nat → List String → List Given → List String → Except Halt (List String × List Given)
  | 0, _, _, _ => .error .misuse
  | more + 1, names, outer, args => do
    let (g, next) ← (usage names).read none .nothing args
    match next with
    | some (name, args) => readLevels more (names ++ [name]) (g :: outer) args
    | none => return (names, g :: outer)

end Command

namespace Invocation

/-- What is asked for by names and what is given at each level, the innermost first. -/
def ofLevels? (names : List String) : List Given → Option Invocation
  | [] => none
  | g :: outer => do
    let configs ← ((g :: outer).filterMap (·.value? "config")).mapM Given.path?
    if outer.any fun g => !g.words.isEmpty then none
    return { config := configs.head?
             isVerbose := (g :: outer).any (·.has "verbose")
             command := ← Command.ofGiven? names g }

/-- What arguments ask for. -/
def read (args : List String) : Except Halt Invocation := do
  let (names, levels) ← Command.readLevels Command.levels [] [] args
  ((ofLevels? names levels).map .ok).getD (.error .misuse)

end Invocation

end SchemaLint
