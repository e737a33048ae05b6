import SchemaLint.File.System

/-!
# Hosts

A host is what a program runs on: its files, what is typed in, where it prints and what time it is.
-/

namespace SchemaLint

/-- What a program may ask of the machine. -/
structure Host (m : Type → Type) where
  files : FileSystem m
  /-- The path of the working directory. -/
  cwd : m String
  /-- The next line that is typed in, if there is one. -/
  readLine : m (Option String)
  /-- Prints to the output. -/
  print : String → m Unit
  /-- Prints to the channel for messages. -/
  tell : String → m Unit
  /-- The time as text. -/
  now : m String

namespace Host

variable {m : Type → Type}

/-- Prints a line to the output. -/
def printLine (h : Host m) (s : String) : m Unit :=
  h.print (s ++ "\n")

/-- Prints a line to the channel for messages. -/
def tellLine (h : Host m) (s : String) : m Unit :=
  h.tell (s ++ "\n")

end Host

end SchemaLint
