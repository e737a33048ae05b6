import SchemaLint.ClassSource
import SchemaLint.Host
import SchemaLint.Text.Blank

/-!
# Finding the sources of classes

The source of a class is looked for in directories, in the files named after it, and then asked for.
A file found counts only if it declares the class; an answer counts as soon as the file that it
names can be read.
-/

namespace SchemaLint

/-- Where sources of classes are looked for. -/
structure Locator where
  directories : List String
  /-- Whether to ask for sources that are not found. -/
  asks : Bool
  deriving DecidableEq, Repr

namespace Locator

variable {m : Type → Type} [Monad m]

/-- The name of the file of a class. -/
def fileName (name : String) : String :=
  name ++ ".java"

/-- The first of several sources that declares a class. -/
def firstDeclaring (fs : FileSystem m) (name : String) : List String → m (Option String)
  | [] => return none
  | file :: files => do
    match ← fs.read file with
    | .ok source =>
      if ClassSource.declares source name then return some source
      else firstDeclaring fs name files
    | .error _ => firstDeclaring fs name files

/-- Looks for the source of a class in directories. -/
def search (fs : FileSystem m) (name : String) : List String → m (Option String)
  | [] => return none
  | dir :: dirs => do
    let files := (← fs.filesBelow dir).filter (Path.name · == fileName name)
    match ← firstDeclaring fs name files with
    | some source => return some source
    | none => search fs name dirs

/-- Asks for the source of a class, at most so many times; an empty answer or none declines. -/
def ask (h : Host m) (name : String) : Nat → m (Option String)
  | 0 => return none
  | more + 1 => do
    h.tell ("Path to the source of '" ++ name ++ "' (empty to skip): ")
    match ← h.readLine with
    | none => return none
    | some line =>
      let answer := String.ofList (Text.trim line.toList)
      if answer == "" then return none
      match ← h.files.read answer with
      | .ok source => return some source
      | .error e =>
        h.tellLine ("error: " ++ answer ++ ": " ++ e.message)
        ask h name more

/-- How often one source is asked for at most, which is more than anyone answers. -/
def patience : Nat := 1 <<< 64

/-- Finds the source of a class. -/
def locate (l : Locator) (h : Host m) (name : String) : m (Option String) := do
  match ← search h.files name l.directories with
  | some source => return some source
  | none => if l.asks then ask h name patience else return none

end Locator

end SchemaLint
