/-!
# Paths

A path is a text whose parts are set off by slashes. Joining keeps what was written: a path is not
normalized, and an absolute path takes the place of what stands before it. Each step from a path to
the one above it makes it shorter, which bounds the walk up to the top.
-/

namespace SchemaLint

namespace Path

/-- Tells whether a path starts at the root. -/
def isAbsolute (path : String) : Bool :=
  path.toList.head? == some '/'

/-- The path that a path means when it is written in a directory. -/
def join (dir path : String) : String :=
  if isAbsolute path || dir == "" then path
  else if dir.toList.getLast? == some '/' then dir ++ path
  else dir ++ "/" ++ path

/-- The parts of a path. -/
def segments (path : String) : List String :=
  (path.toList.splitOn '/').map String.ofList

/-- The last part of a path. -/
def name (path : String) : String :=
  ((segments path).getLast?).getD ""

/-- A path without the slashes at its end. -/
def withoutLastSlashes (path : String) : String :=
  String.ofList ((path.toList.reverse.dropWhile (· == '/')).reverse)

/-- What is left of a reversed path when the parts at its end that lead nowhere are dropped. -/
def trim : List Char → List Char
  | [] => []
  | '/' :: r => trim r
  | ['.'] => []
  | '.' :: '/' :: r => trim r
  | c :: r => c :: r

theorem length_trim_le (r : List Char) : (trim r).length ≤ r.length := by
  fun_induction trim r with
  | case1 => simp
  | case2 r ih => simp only [List.length_cons]; omega
  | case3 => simp
  | case4 r ih => simp only [List.length_cons]; omega
  | case5 => simp

/-- What a path has in front of its parts: the root or the directory that it starts from. -/
def lead : List Char → List Char
  | '/' :: _ => ['/']
  | ['.'] => ['.']
  | '.' :: '/' :: _ => ['.']
  | _ => []

theorem length_lead_le (path : List Char) : (lead path).length ≤ path.length := by
  unfold lead
  split <;> simp

/-- The characters of the path above a path. -/
def above? (path : List Char) : Option (List Char) :=
  let front := lead path
  match trim (path.drop front.length).reverse with
  | [] => if front = ['.'] then some [] else none
  | _ :: r => some (front ++ (trim (r.dropWhile (· != '/'))).reverse)

theorem length_above?_lt {path up : List Char} (h : above? path = some up) :
    up.length < path.length := by
  have hlead := length_lead_le path
  simp only [above?] at h
  split at h
  · split at h
    · next hdot =>
      rw [← Option.some.inj h]
      simp only [hdot, List.length_cons, List.length_nil] at hlead ⊢
      omega
    · cases h
  · next c r hbody =>
    have hle := length_trim_le (path.drop (lead path).length).reverse
    have hcut := length_trim_le (r.dropWhile (· != '/'))
    have hdrop := (List.dropWhile_suffix (· != '/') (l := r)).length_le
    rw [hbody] at hle
    rw [← Option.some.inj h]
    simp only [List.length_cons, List.length_reverse, List.length_drop, List.length_append]
      at hle ⊢
    omega

/-- The path above a path: what is left without its last part. -/
def parent? (path : String) : Option String :=
  (above? path.toList).map String.ofList

/-- The characters of the paths above a path, the nearest first. -/
def allAbove (path : List Char) : List (List Char) :=
  match _h : above? path with
  | none => []
  | some up => up :: allAbove up
termination_by path.length
decreasing_by exact length_above?_lt ‹_›

/-- The paths above a path, the nearest first. -/
def parents (path : String) : List String :=
  (allAbove path.toList).map String.ofList

end Path

end SchemaLint
