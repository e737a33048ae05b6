import SchemaLint.Pattern.CharSet

/-!
# Properties named in patterns

A property is named by its category, its script or itself. Case, blanks, hyphens and underscores in
names do not count, and a name may begin with `is`.
-/

namespace SchemaLint.Pattern.Property

open Unicode

/-- A name reduced to what counts. -/
def reduce (name : List Char) : List Char :=
  let plain := (name.filter fun c => !(c == ' ' || c == '_' || c == '-')).map Char.toLower
  match plain with
  | 'i' :: 's' :: rest => if rest == ['c'] then plain else rest
  | _ => plain

/-- The property of a list that has a name. -/
def find? (properties : List Property) (name : List Char) : Option CharSet :=
  (properties.find? fun p => p.names.any fun n => reduce n.toList == name).map fun p =>
    .property p.points

/-- The groups of general categories, with their names and the first letters of their members. -/
def groups : List (List String × List Property) :=
  [(["lc", "casedletter"], [Category.lu, Category.ll, Category.lt]),
   (["l", "letter"], [Category.lu, Category.ll, Category.lt, Category.lm, Category.lo]),
   (["m", "mark", "combiningmark"], [Category.mn, Category.mc, Category.me]),
   (["n", "number"], [Category.nd, Category.nl, Category.no]),
   (["p", "punctuation", "punct"], [Category.pc, Category.pd, Category.ps, Category.pe, Category.pi,
     Category.pf, Category.po]),
   (["s", "symbol"], [Category.sm, Category.sc, Category.sk, Category.so]),
   (["z", "separator"], [Category.zs, Category.zl, Category.zp]),
   (["c", "other"], [Category.cc, Category.cf, Category.co, Category.cn])]

/-- The set of a general category or of a group of them. -/
def category? (name : List Char) : Option CharSet :=
  match String.ofList name with
  | "any" => some .any
  | "assigned" => some (.property Category.cn.points.compl)
  | "ascii" => some (.range '\x00' '\x7f')
  | s =>
    match groups.find? fun (names, _) => names.contains s with
    | some (_, members) => some (CharSet.unions (members.map fun p => .property p.points))
    | none => find? Category.all name

/-- The set that a name alone stands for. -/
def named? (name : List Char) : Option CharSet :=
  if ["cf", "sc", "lc"].contains (String.ofList name) then category? name
  else ((find? Binary.all name).or (category? name)).or (find? Script.all name)

/-- The set that a property with a value stands for. -/
def valued? (property value : List Char) : Option CharSet :=
  match String.ofList property with
  | "gc" | "generalcategory" => category? value
  | "sc" | "script" | "scx" | "scriptextensions" => find? Script.all value
  | _ => none

/-- The set that the text between the braces after `\p` stands for. -/
def read? (s : List Char) : Option CharSet :=
  let (property, rest) := s.span fun c => !(c == '=' || c == ':')
  match rest with
  | [] => named? (reduce s)
  | _ :: value =>
    if property.getLast? == some '!' then
      (valued? (reduce property.dropLast) (reduce value)).map .compl
    else valued? (reduce property) (reduce value)

end SchemaLint.Pattern.Property
