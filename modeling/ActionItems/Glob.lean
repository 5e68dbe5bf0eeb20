import ActionItems.Pattern.Reader

/-!
# Globs

An ignore pattern is a glob. A star matches any run of characters, slashes included, a question mark
one character other than a slash, and a point itself; brackets, braces and the rest keep the meaning
they have in search patterns (`asPattern`). A glob matches a path if it occurs anywhere in it. One
that cannot be read as a pattern matches no path.
-/

namespace ActionItems

/-- One character of a glob in the notation of search patterns. -/
def Glob.asPatternChar : Char → List Char
  | '*' => ['.', '*']
  | '?' => ['[', '^', '/', ']']
  | '.' => ['\\', '.']
  | c => [c]

/-- A glob in the notation of search patterns. -/
def Glob.asPattern (glob : List Char) : List Char := glob.flatMap asPatternChar

variable [CharNames]

/-- The search pattern of a glob; `none` if the glob is malformed. -/
def Glob.compile? (glob : String) : Except Pattern.ReadError (Option Pattern.Node) :=
  match Pattern.read (asPattern glob.toList) with
  | .ok node => .ok (some node)
  | .error .malformed => .ok none
  | .error e => .error e

/-- The globs of a list as search patterns, without the malformed ones. -/
def Glob.compileAll : List String → Except Pattern.ReadError (List Pattern.Node)
  | [] => .ok []
  | glob :: more => do
    let first ← Glob.compile? glob
    let rest ← Glob.compileAll more
    return first.toList ++ rest

/-- Whether one of the patterns occurs in a path. -/
def Glob.anyMatch (patterns : List Pattern.Node) (path : String) : Bool :=
  patterns.any fun node => Pattern.search node path.toList

end ActionItems
