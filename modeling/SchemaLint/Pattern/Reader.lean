import SchemaLint.Pattern.Class
import SchemaLint.Pattern.Expr
import SchemaLint.Pattern.Property

/-!
# Reading patterns

A pattern is read from left to right. Alternatives are sequences of pieces, a piece is an atom with
an optional repetition. Flags set inside a pattern hold for what is read after them, up to the end
of the group `(?flags: … )` that sets them.
-/

namespace SchemaLint.Pattern

/-- The flags in force. -/
structure Flags where
  caseless : Bool := false
  /-- `^` and `$` match at lines. -/
  multiline : Bool := false
  /-- `.` matches a line end. -/
  dotAll : Bool := false
  /-- Repetitions are lazy, and greedy with `?`. -/
  swapGreed : Bool := false
  /-- Blanks and comments are passed over. -/
  extended : Bool := false

/-- What is left of a pattern and what is known of the part read. -/
structure Reader where
  rest : List Char
  flags : Flags
  /-- The groups opened. -/
  groups : Nat
  /-- The names of groups, the last first. -/
  names : List (List Char × Nat)
  /-- The groups referred to. -/
  referred : List Nat
  /-- Whether a group has been referred to by a plain number. -/
  byNumber : Bool
  /-- The byte length of the whole pattern. -/
  length : Nat

/-- A step of reading, which fails on what is no pattern. -/
abbrev Read (α : Type) := StateT Reader Option α

namespace Reader

/-- The next character, if any. -/
def peek? : Read (Option Char) := do
  return (← get).rest.head?

/-- What is left. -/
def rest? : Read (List Char) := do
  return (← get).rest

/-- Passes over characters. -/
def skip (n : Nat) : Read Unit :=
  modify fun r => { r with rest := r.rest.drop n }

/-- The next character, passed over. -/
def next : Read Char := do
  match (← get).rest with
  | [] => failure
  | c :: rest => modify fun r => { r with rest }; return c

/-- Passes over a given text if it is next. -/
def accept (s : String) : Read Bool := do
  if s.toList.isPrefixOf (← get).rest then skip s.length; return true
  else return false

/-- Tells whether a character is a decimal digit of ASCII. -/
def isNumeral (c : Char) : Bool :=
  c.isDigit

/-- Reads a decimal number that fits a machine word. -/
def number? : Read (Option Nat) := do
  let digits := (← get).rest.takeWhile isNumeral
  let n := digits.foldl (fun n c => n * 10 + (c.toNat - '0'.toNat)) 0
  if digits.isEmpty || 1 <<< 64 ≤ n then return none
  skip digits.length
  return some n

/-- What is left after the comment at its start; an escaped parenthesis does not end it. -/
def dropComment? : List Char → Option (List Char)
  | [] => none
  | ')' :: rest => some rest
  | '\\' :: _ :: rest => dropComment? rest
  | _ :: rest => dropComment? rest

/-- What is left after blanks and comments; `fuel` bounds their number. -/
def dropIgnored? (extended : Bool) : Nat → List Char → Option (List Char)
  | 0, s => some s
  | fuel + 1, s =>
    match s with
    | '(' :: '?' :: '#' :: rest => (dropComment? rest).bind (dropIgnored? extended fuel)
    | '#' :: rest =>
      if extended then dropIgnored? extended fuel ((rest.dropWhile (· != '\n')).drop 1) else some s
    | c :: rest =>
      if extended && (c == ' ' || c == '\r' || c == '\n' || c == '\t') then
        dropIgnored? extended fuel rest
      else some s
    | [] => some s

/-- Passes over comments and, where the flags say so, blanks. -/
def ignored : Read Unit := do
  let r ← get
  match dropIgnored? r.flags.extended (r.rest.length + 1) r.rest with
  | some rest => set { r with rest }
  | none => failure

/-- Reads the parenthesis that closes a group. -/
def closeGroup : Read Unit := do
  ignored
  if !(← accept ")") then failure

/-- Characters of the names of groups. -/
def isNameChar (c : Char) : Bool :=
  Unicode.isDigit c || c == '_' || Unicode.Binary.alphabetic.points.contains c.toNat ||
    Unicode.Category.nl.points.contains c.toNat || Unicode.Category.no.points.contains c.toNat

/-- Reads the name of a group up to a closing mark, and the mark. -/
def groupName? (close : String) : Read (Option (List Char)) := do
  let rest := (← get).rest
  let name := rest.takeWhile isNameChar
  if name.isEmpty || !close.toList.isPrefixOf (rest.drop name.length) then return none
  skip (name.length + close.length)
  return some name

/-- The value of some decimal digits. -/
def value? (digits : List Char) : Option Nat :=
  if digits.isEmpty || !digits.all isNumeral then none
  else some (digits.foldl (fun n c => n * 10 + (c.toNat - '0'.toNat)) 0)

/-- Notes a reference to a group. -/
def refer (n : Nat) : Read Nat := do
  modify fun r => { r with referred := n :: r.referred }
  return n

/-- Reads a reference to a group by its number, which is small beside the length of the pattern. -/
def numberedReference : Read Nat := do
  match ← number? with
  | some n =>
    if n < (← get).length / 2 then
      modify fun r => { r with byNumber := true }
      refer n
    else failure
  | none => failure

/-- Reads a number with its sign. -/
def signedNumber? (s : List Char) : Option (Bool × Nat × List Char) :=
  match s with
  | '-' :: rest => (value? (rest.takeWhile isNumeral)).map fun n => (true, n, rest.dropWhile isNumeral)
  | '+' :: rest => (value? (rest.takeWhile isNumeral)).map fun n => (false, n, rest.dropWhile isNumeral)
  | _ => none

/-- Reads a reference to a group by its name, by its number or by its distance. -/
def namedReference (close : String) (mayBeRelative : Bool) : Read Nat := do
  match ← groupName? close with
  | some name =>
    match (← get).names.find? (·.1 == name), value? name with
    | some (_, n), _ => refer n
    | none, some n => refer n
    | none, none => failure
  | none =>
    let r ← get
    match signedNumber? r.rest with
    | some (back, n, rest) =>
      if mayBeRelative && close.toList.isPrefixOf rest then
        set { r with rest := rest.drop close.length }
        if back then
          if n ≤ r.groups && 0 < n then refer (r.groups + 1 - n) else failure
        else refer (r.groups + n)
      else failure
    | none => failure

/-- The value of hexadecimal digits. -/
def hexValue? (digits : List Char) : Option Nat :=
  digits.foldl (fun n c => do return (← n) * 16 + (← Unicode.CodePoints.hexDigit? c)) (some 0)

/-- Reads a code point written with a fixed number of hexadecimal digits or in braces. -/
def hexChar (digits : Nat) : Read Char := do
  let rest := (← get).rest
  let isHex : Char → Bool := fun c => (Unicode.CodePoints.hexDigit? c).isSome
  let fixed := (rest.take digits).takeWhile isHex
  let n ←
    if fixed.length == digits then
      skip digits
      pure (hexValue? fixed)
    else if rest.head? == some '\x7b' then
      let braced := (rest.drop 1).takeWhile isHex
      if braced.isEmpty || 8 < braced.length || (rest.drop (braced.length + 1)).head? != some '\x7d' then
        failure
      skip (braced.length + 2)
      pure (hexValue? braced)
    else failure
  match n with
  | some n => if n.isValidChar then return Char.ofNat n else failure
  | none => failure

/-- Reads what follows `\p` or `\P`. -/
def property (negated : Bool) : Read CharSet := do
  let caseless := (← get).flags.caseless
  let c ← next
  let s ←
    if c == '\x7b' then
      let name := (← get).rest.takeWhile (· != '\x7d')
      skip name.length
      let _ ← next
      pure (Property.read? name)
    else pure (Property.category? [c.toLower])
  match s with
  | some s => return .complIf negated (.foldedIf caseless s)
  | none => failure

/-- The character that an escape letter stands for. -/
def escaped? : Char → Option Char
  | 'a' => some '\x07'
  | 'b' => some '\x08'
  | 'f' => some '\x0c'
  | 'n' => some '\n'
  | 'r' => some '\r'
  | 't' => some '\t'
  | 'v' => some '\x0b'
  | 'e' => some '\x1b'
  | c => if c.isAlpha && !(['k', 'A', 'z', 'B', 'K', 'G'].contains c) then none else some c

/-- What an escape means. -/
inductive Escape where
  | char (c : Char)
  | set (s : CharSet)
  /-- A class of hexadecimal digits, or of all other characters. -/
  | hexDigits (negated : Bool)
  | expr (e : Expr)

/-- The hexadecimal digits of ASCII. -/
def hexDigits : CharSet :=
  .unions [.range '0' '9', .range 'A' 'F', .range 'a' 'f']

/-- The anchor or the like that an escape letter outside classes means. -/
def anchor? : Char → Option Expr
  | 'A' => some (.anchor .textStart)
  | 'z' => some (.anchor .textEnd)
  | 'B' => some (.anchor .notWordEdge)
  | '<' => some (.anchor .wordStart)
  | '>' => some (.anchor .wordEnd)
  | 'G' => some (.anchor .searchStart)
  | 'K' => some .keepOut
  | _ => none

/-- The set that an escape letter means. -/
def set? : Char → Option CharSet
  | 'd' => some .digit
  | 'D' => some (.compl .digit)
  | 's' => some .blank
  | 'S' => some (.compl .blank)
  | 'w' => some .word
  | 'W' => some (.compl .word)
  | _ => none

/-- Reads an escape outside classes that means no character. -/
def outerEscape? (c : Char) : Read (Option Expr) := do
  if c == 'k' then
    skip 1
    if !(← accept "<") then failure
    return some (.backref (← namedReference ">" true) (← get).flags.caseless)
  else if c == 'b' then
    skip 1
    if (← peek?) == some '\x7b' then failure
    return some (.anchor .wordEdge)
  else match anchor? c with
    | some e => skip 1; return some e
    | none => return none

/-- Reads what follows a backslash. -/
def escape (inClass : Bool) : Read Escape := do
  match ← peek? with
  | none => failure
  | some c =>
    if isNumeral c then
      return .expr (.backref (← numberedReference) (← get).flags.caseless)
    if !inClass then
      if let some e ← outerEscape? c then return .expr e
    let atEnd := (← get).rest.length == 1
    skip 1
    match set? c with
    | some s => return .set s
    | none =>
      if c == 'h' || c == 'H' then return .hexDigits (c == 'H')
      else if c == 'x' then return .char (← hexChar 2)
      else if c == 'u' then return .char (← hexChar 4)
      else if c == 'U' then return .char (← hexChar 8)
      else if (c == 'p' || c == 'P') && !atEnd then return .set (← property (c == 'P'))
      else match escaped? c with
        | some c => return .char c
        | none => failure

/-- Reads the items of a class up to its closing bracket; `depth` counts the brackets open. -/
def classItems : Nat → Nat → Read (List Class.Item)
  | 0, _ => failure
  | fuel + 1, depth => do
    match ← next with
    | '\\' =>
      match ← escape true with
      | .char c => return .literal c :: (← classItems fuel depth)
      | .set s => return .set s :: (← classItems fuel depth)
      | .hexDigits negated =>
        let digits := "0-9A-Fa-f]".toList.map Class.Item.plain
        let opener := if negated then [Class.Item.plain '[', .plain '^'] else [.plain '[']
        return opener ++ digits ++ (← classItems fuel depth)
      | .expr _ => failure
    | '[' => return .plain '[' :: (← classItems fuel (depth + 1))
    | ']' =>
      if depth == 0 then return [.plain ']'] else return .plain ']' :: (← classItems fuel (depth - 1))
    | c => return .plain c :: (← classItems fuel depth)

/-- Reads a class after its opening bracket. A closing bracket at its start stands for itself. -/
def bracketed : Read CharSet := do
  let negated ← accept "^"
  let first := if ← accept "]" then [Class.Item.literal ']'] else []
  let r ← get
  let items ← classItems (r.rest.length + 1) 0
  match Class.read? r.flags.caseless negated (first ++ items) with
  | some s => return s
  | none => failure

/-- Reads the bounds of a repetition after its opening brace. -/
def bounds? : Read (Nat × Option Nat) := do
  ignored
  let lo ← if (← peek?) == some ',' then pure (some 0) else number?
  match lo with
  | none => failure
  | some lo =>
    ignored
    let hi ←
      if (← peek?) == some '\x7d' then pure (some lo)
      else if ← accept "," then
        ignored
        number?
      else failure
    ignored
    if (← next) == '\x7d' then return (lo, hi) else failure

/-- Reads a repetition, if one is next; braces that hold no bounds are characters. -/
def repetition? : Read (Option (Nat × Option Nat)) := do
  let r ← get
  match r.rest with
  | '?' :: _ => skip 1; return some (0, some 1)
  | '*' :: _ => skip 1; return some (0, none)
  | '+' :: _ => skip 1; return some (1, none)
  | '\x7b' :: _ =>
    match (do skip 1; bounds? : Read (Nat × Option Nat)).run r with
    | some (b, r) => set r; return some b
    | none => return none
  | _ => return none

/-- An atom with the repetition that follows it. -/
def repeated (e : Expr) : Read Expr := do
  ignored
  match ← repetition? with
  | none => return e
  | some (lo, hi) =>
    if !e.isRepeatable then failure
    ignored
    let reluctant ← accept "?"
    let greedy := reluctant == (← get).flags.swapGreed
    let possessive ← accept "+"
    let e := Expr.rep e lo hi greedy
    return if possessive then .atomic e else e

/-- Flags with the one that a letter names turned on or off. -/
def setFlag? (f : Flags) (letter : Char) (on : Bool) : Option Flags :=
  match letter with
  | 'i' => some { f with caseless := on }
  | 'm' => some { f with multiline := on }
  | 's' => some { f with dotAll := on }
  | 'U' => some { f with swapGreed := on }
  | 'x' => some { f with extended := on }
  | 'u' => if on then some f else none
  | _ => none

/-- Reads flags and the mark after them, a parenthesis or a colon, and tells whether it is the colon.
A minus sign turns the flags after it off; alone it is no flag. `length` is what was left before the
flags. -/
def flagLetters (length : Nat) : Nat → Bool → Read Bool
  | 0, _ => failure
  | fuel + 1, negated => do
    ignored
    let r ← get
    let count := length - r.rest.length
    match ← next with
    | '-' => if negated then failure else flagLetters length fuel true
    | ')' => if count == 0 || (negated && count == 1) then failure else return false
    | ':' => if negated && count == 1 then failure else return true
    | c =>
      match setFlag? r.flags c (!negated) with
      | some f =>
        modify fun r => { r with flags := f }
        flagLetters length fuel negated
      | none => failure

/-- Opens a group and returns its number. -/
def openGroup : Read Nat := do
  modify fun r => { r with groups := r.groups + 1 }
  return (← get).groups

/-- Opens a group with a name, which is next. -/
def openNamedGroup (close : String) : Read Nat := do
  let n ← openGroup
  match ← groupName? close with
  | some name =>
    modify fun r => { r with names := (name, n) :: r.names }
    return n
  | none => failure

/-- What stands after the parenthesis that opens a group. -/
inductive Opening where
  | look (behind negative : Bool)
  | group (n : Nat)
  | backref
  | atomic
  | conditional
  | flags

/-- Reads what stands after the parenthesis that opens a group. -/
def opening : Read Opening := do
  if ← accept "?=" then return .look false false
  else if ← accept "?!" then return .look false true
  else if ← accept "?<=" then return .look true false
  else if ← accept "?<!" then return .look true true
  else if ← accept "?<" then return .group (← openNamedGroup ">")
  else if ← accept "?\x27" then return .group (← openNamedGroup "\x27")
  else if ← accept "?P<" then return .group (← openNamedGroup ">")
  else if ← accept "?P=" then return .backref
  else if ← accept "?>" then return .atomic
  else if ← accept "?(" then return .conditional
  else if ← accept "?" then return .flags
  else return .group (← openGroup)

/-- The condition that a read expression is: for a reference, that its group has matched. -/
def testOf : Expr → Expr
  | .backref n _ => .isSet n
  | e => e

/-- The two branches of a conditional: the first alternative, and the others. -/
def branches : Expr → Expr × Expr
  | .alt [yes, no] => (yes, no)
  | .alt (yes :: others) => (yes, .alt others)
  | e => (e, .empty)

/-- A conditional; when both branches are empty the condition alone is left. -/
def conditionalOf (test e : Expr) : Expr :=
  let (yes, no) := branches e
  if yes.isEmpty && no.isEmpty then testOf test else .cond (testOf test) yes no

/-- Expressions one after the other. -/
def sequenceOf : List Expr → Expr
  | [] => .empty
  | [e] => e
  | es => .seq es

/-- An atom that is one character long. -/
def single (c : Char) : Read Expr := do
  let f := (← get).flags
  match c with
  | '.' => return .char (if f.dotAll then .any else .compl (.single '\n'))
  | '^' => return .anchor (if f.multiline then .lineStart else .textStart)
  | '$' => return .anchor (if f.multiline then .lineEnd else .textEnd)
  | c => return .char (.foldedIf f.caseless (.single c))

/-- The expression that an escape outside classes means. -/
def escapedAtom : Read Expr := do
  match ← escape false with
  | .char c => return .char (.foldedIf (← get).flags.caseless (.single c))
  | .set s => return .char s
  | .hexDigits negated => return .char (.complIf negated hexDigits)
  | .expr e => return e

/-- The groups that may be nested. -/
def maxDepth : Nat := 63

mutual

/-- Reads alternatives. `depth` counts the groups around them. -/
def alternatives (depth : Nat) : Nat → Read Expr
  | 0 => failure
  | fuel + 1 => do
    let first := sequenceOf (← pieces depth fuel)
    ignored
    match ← others depth fuel with
    | [] =>
      let r ← get
      if r.byNumber && !r.names.isEmpty then failure
      return first
    | es => return .alt (first :: es)

/-- Reads the alternatives after the first. -/
def others (depth : Nat) : Nat → Read (List Expr)
  | 0 => failure
  | fuel + 1 => do
    if ← accept "|" then
      let e := sequenceOf (← pieces depth fuel)
      ignored
      return e :: (← others depth fuel)
    else return []

/-- Reads pieces as long as there is one; empty ones are left out. -/
def pieces (depth : Nat) : Nat → Read (List Expr)
  | 0 => failure
  | fuel + 1 => do
    let length := (← get).rest.length
    let e ← piece depth fuel
    if (← get).rest.length == length then return []
    let es ← pieces depth fuel
    return if e.isEmpty then es else e :: es

/-- Reads an atom with its repetition. -/
def piece (depth : Nat) : Nat → Read Expr
  | 0 => failure
  | fuel + 1 => do
    ignored
    match ← peek? with
    | none => return .empty
    | some '(' =>
      skip 1
      repeated (← group (depth + 1) fuel)
    | some '\\' =>
      skip 1
      repeated (← escapedAtom)
    | some '[' =>
      skip 1
      repeated (.char (← bracketed))
    | some '+' | some '*' | some '?' | some '|' | some ')' => repeated .empty
    | some c =>
      skip 1
      repeated (← single c)

/-- Reads a group after its opening parenthesis. -/
def group (depth : Nat) : Nat → Read Expr
  | 0 => failure
  | fuel + 1 => do
    if maxDepth < depth then failure
    ignored
    match ← opening with
    | .look behind negative =>
      let e ← alternatives depth fuel
      closeGroup
      return .look behind negative e
    | .group n =>
      let e ← alternatives depth fuel
      closeGroup
      return .group n e
    | .backref => return .backref (← namedReference ")" false) (← get).flags.caseless
    | .atomic =>
      let e ← alternatives depth fuel
      closeGroup
      return .atomic e
    | .conditional => conditional depth fuel
    | .flags => flagGroup depth fuel

/-- Reads a group that sets flags, for all that follows or for the group alone. -/
def flagGroup (depth : Nat) : Nat → Read Expr
  | 0 => failure
  | fuel + 1 => do
    let r ← get
    if ← flagLetters r.rest.length (r.rest.length + 1) false then
      let e ← alternatives depth fuel
      closeGroup
      modify fun r' => { r' with flags := r.flags }
      return e
    else return .empty

/-- Reads a conditional after the parenthesis that opens its condition. -/
def conditional (depth : Nat) : Nat → Read Expr
  | 0 => failure
  | fuel + 1 => do
    let test ←
      match ← peek? with
      | some '\x27' =>
        skip 1
        pure (.backref (← namedReference "\x27" true) false)
      | some '<' =>
        skip 1
        pure (.backref (← namedReference ">" true) false)
      | some c =>
        if isNumeral c then pure (.backref (← numberedReference) false)
        else alternatives depth fuel
      | none => failure
    closeGroup
    let length := (← get).rest.length
    let e ← alternatives depth fuel
    let isBare := (← get).rest.length == length
    closeGroup
    match isBare, test with
    | false, _ => return conditionalOf test e
    | true, .backref n _ => return .isSet n
    | true, _ => failure

end

/-- The reader at the start of a pattern. -/
def start (pattern : String) : Reader :=
  { rest := pattern.toList
    flags := {}
    groups := 0
    names := []
    referred := []
    byNumber := false
    length := pattern.utf8ByteSize }

end Reader

/-- A pattern that has been read. -/
structure Reading where
  expr : Expr
  /-- The groups that are referred to. -/
  referred : List Nat

/-- Reads a pattern. References must be to groups of the pattern. -/
def read? (pattern : String) : Option Reading := do
  let reader := Reader.start pattern
  let (expr, reader) ← (Reader.alternatives 0 (6 * pattern.length + 12)).run reader
  if reader.rest.isEmpty && reader.referred.all fun n => 0 < n && n ≤ reader.groups then
    return { expr, referred := reader.referred }
  else none

end SchemaLint.Pattern
