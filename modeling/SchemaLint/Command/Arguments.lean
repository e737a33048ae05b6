/-!
# Arguments

The arguments of a command are flags, words and the name of a command within it. A flag has a long
name behind two hyphens and may have a letter behind one; letters may stand together. A value stands
behind its flag, as the next argument or joined to it. No flag is given twice, and two hyphens alone
make all that follows words.
-/

namespace SchemaLint

/-- What a flag does. -/
inductive FlagKind where
  /-- It is there or not. -/
  | switch
  /-- It takes a value. -/
  | value
  /-- It is answered at once, whatever follows. -/
  | answer
  deriving DecidableEq, Repr

/-- A flag that a command takes. -/
structure Flag where
  kind : FlagKind
  long : String
  short? : Option Char
  deriving DecidableEq, Repr

/-- What a command takes. -/
structure Usage where
  flags : List Flag
  /-- The names of the commands within it. -/
  commands : List String
  deriving Repr

/-- Why arguments are not taken as a command. -/
inductive Halt where
  /-- They are not what the command takes. -/
  | misuse
  /-- A flag is answered at once. -/
  | answer (flag : String)
  deriving DecidableEq, Repr

/-- What is given to a command. -/
structure Given where
  /-- The long names of the flags with their values. -/
  flags : List (String × Option String)
  words : List String
  deriving Repr

namespace Given

/-- Nothing is given. -/
def nothing : Given :=
  { flags := [], words := [] }

/-- Tells whether a flag is given. -/
def has (g : Given) (long : String) : Bool :=
  g.flags.any (·.1 == long)

/-- The value of a flag. -/
def value? (g : Given) (long : String) : Option String :=
  (g.flags.lookup long).join

/-- Gives a flag. -/
def add (g : Given) (f : Flag) (value : Option String) : Except Halt Given :=
  if g.has f.long || (f.kind == .value) != value.isSome then .error .misuse
  else if f.kind = .answer then .error (.answer f.long)
  else .ok { g with flags := g.flags ++ [(f.long, value)] }

/-- Gives the flags whose letters stand together. The last of them may want a value, which either
follows its letter or is still to come. -/
def addLetters (flags : List Flag) (g : Given) : List Char → Except Halt (Given × Option Flag)
  | [] => .ok (g, none)
  | c :: cs =>
    match flags.find? (·.short? == some c) with
    | none => .error .misuse
    | some f =>
      if f.kind = .value then
        match cs with
        | [] => .ok (g, some f)
        | '=' :: value => return (← g.add f (some (String.ofList value)), none)
        | value => return (← g.add f (some (String.ofList value)), none)
      else do addLetters flags (← g.add f none) cs

/-- Gives the flag of a long name, which may be joined to a value by an equals sign. A flag that
wants a value and has none is still to get it. -/
def addLong (flags : List Flag) (g : Given) (arg : List Char) :
    Except Halt (Given × Option Flag) :=
  let name := String.ofList (arg.takeWhile (· != '='))
  match flags.find? (·.long == name), arg.dropWhile (· != '=') with
  | none, _ => .error .misuse
  | some f, [] => if f.kind = .value then .ok (g, some f) else do return (← g.add f none, none)
  | some f, _ :: value => do return (← g.add f (some (String.ofList value)), none)

end Given

/-- Tells whether an argument can be the value of the flag before it. -/
def isValue (arg : String) : Bool :=
  arg == "-" || arg.toList.head? != some '-'

/-- Reads the arguments of a command up to the name of a command within it. A flag may be waiting
for its value. -/
def Usage.read (u : Usage) :
    Option Flag → Given → List String → Except Halt (Given × Option (String × List String))
  | some _, _, [] => .error .misuse
  | some f, g, arg :: rest => do
    if isValue arg then u.read none (← g.add f (some arg)) rest else .error .misuse
  | none, g, [] => .ok (g, none)
  | none, g, arg :: rest =>
    if u.commands.contains arg then .ok (g, some (arg, rest))
    else
      match arg.toList with
      | ['-', '-'] => .ok ({ g with words := g.words ++ rest }, none)
      | '-' :: '-' :: name => do
        let (g, waiting) ← g.addLong u.flags name
        u.read waiting g rest
      | '-' :: c :: letters => do
        let (g, waiting) ← g.addLetters u.flags (c :: letters)
        u.read waiting g rest
      | _ => u.read none { g with words := g.words ++ [arg] } rest

end SchemaLint
