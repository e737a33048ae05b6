import SchemaLint.Unicode.Binary

/-!
# Characters of words

What `\w` and `\d` mean in patterns: a word character is alphabetic, a mark, a decimal digit, a
connector such as `_`, or a joiner; a digit is a decimal digit of any script. For ASCII these are
the letters, the digits and `_`; other characters are told by the tables of version 15.0 of Unicode.
-/

namespace SchemaLint.Unicode

/-- Tells whether a character is a decimal digit. -/
def isDigit (c : Char) : Bool :=
  if c.toNat < 128 then c.isDigit else Category.nd.points.contains c.toNat

/-- The properties whose characters make up words. -/
def wordProperties : List Property :=
  [Binary.alphabetic, Category.mn, Category.mc, Category.me, Category.nd, Category.pc,
   Binary.joinControl]

/-- Tells whether a character is a word character. -/
def isWord (c : Char) : Bool :=
  if c.toNat < 128 then c.isAlphanum || c == '_'
  else wordProperties.any fun p => p.points.contains c.toNat

end SchemaLint.Unicode
