import SignedSession.Toml.Quoted

/-!
# Keys

A key names a place in a tree of tables: segments joined by points, each bare or a quoted text on
one line, with spaces allowed around each.  A key has fewer than 80 segments.
-/

set_option autoImplicit false

namespace SignedSession.Toml

/-- The place of an entry: the tables on the way to it, outermost first, and its name. -/
structure Key where
  parents : List String
  name : String
deriving DecidableEq

namespace Key

def isBare (c : Char) : Bool := c.isAlphanum || c == '_' || c == '-'

def segment : Reader String
  | '\"' :: rest => (Quoted.basic rest).map fun (chars, rest) => (String.ofList chars, rest)
  | '\'' :: rest => (Quoted.literal rest).map fun (chars, rest) => (String.ofList chars, rest)
  | chars =>
      let bare := chars.takeWhile isBare
      if bare = [] then none else some (String.ofList bare, chars.dropWhile isBare)

/-- The segments of a key, at most `fuel` of them, and the spaces around them. -/
def segments : (fuel : Nat) → Reader Key
  | 0, _ => none
  | fuel + 1, chars => do
      let (first, rest) ← segment (skipSpaces chars)
      match skipSpaces rest with
      | '.' :: rest =>
          let (key, rest) ← segments fuel rest
          return (⟨first :: key.parents, key.name⟩, rest)
      | rest => return (⟨[], first⟩, rest)

/-- A key of fewer than 80 segments, and the spaces around it. -/
def read : Reader Key := segments 79

end Key
end SignedSession.Toml
