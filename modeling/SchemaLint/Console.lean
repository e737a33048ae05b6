import SchemaLint.File.Tree
import SchemaLint.Host

/-!
# Consoles

A console is a host that is a plain value: a file tree, the text that is still to be typed in, and
what was printed. The clock stands still.
-/

namespace SchemaLint

/-- The state of a host that is a value. -/
structure Console where
  tree : FileTree
  /-- What is still to be typed in. -/
  input : List Char
  output : String
  messages : String

namespace Console

/-- The console before a program runs. -/
def start (tree : FileTree) (input : String) : Console :=
  { tree, input := input.toList, output := "", messages := "" }

/-- Works on the file tree of a console. -/
def onTree {α : Type} (action : StateM FileTree α) : StateM Console α := fun c =>
  let (a, tree) := action.run c.tree
  (a, { c with tree })

/-- A line with the character that ends it, and what is left. -/
def cutLine (s : List Char) : List Char × List Char :=
  let line := s.takeWhile (· != '\n')
  let rest := s.drop line.length
  (line ++ rest.take 1, rest.drop 1)

/-- Takes the next line that is typed in. -/
def readLine : StateM Console (Option String) := fun c =>
  if c.input.isEmpty then (none, c)
  else
    let (line, input) := cutLine c.input
    (some (String.ofList line), { c with input })

/-- A console as a host, seen from a working directory. -/
def host (cwd : Place) (time : String) : Host (StateM Console) where
  files := (FileTree.system cwd).map onTree
  cwd := return "/" ++ "/".intercalate cwd
  readLine := readLine
  print s := modify fun c => { c with output := c.output ++ s }
  tell s := modify fun c => { c with messages := c.messages ++ s }
  now := return time

end Console

end SchemaLint
