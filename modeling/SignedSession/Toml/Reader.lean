/-!
# Reading characters

A reader takes a value off the front of a list of characters and gives what is left.  Blanks are
spaces and tabs; a line ends with a line feed, with or without a carriage return before it, and may
have a comment before its end.
-/

set_option autoImplicit false

namespace SignedSession.Toml

/-- Takes a value off the front of the characters, or refuses them. -/
abbrev Reader (α : Type) : Type := List Char → Option (α × List Char)

def exactly (c : Char) : Reader Unit
  | head :: rest => if head = c then some ((), rest) else none
  | [] => none

/-- Whether a character may stand in a comment: the tab and all but the control characters. -/
def isText (c : Char) : Bool :=
  c == '\t' || (0x20 ≤ c.toNat && c.toNat != 0x7F)

def isSpace (c : Char) : Bool := c == ' ' || c == '\t'

def skipSpaces (chars : List Char) : List Char := chars.dropWhile isSpace

def lineEnd? : List Char → Option (List Char)
  | '\n' :: rest => some rest
  | '\r' :: '\n' :: rest => some rest
  | _ => none

def skipSpacesAndLines : List Char → List Char
  | ' ' :: rest => skipSpacesAndLines rest
  | '\t' :: rest => skipSpacesAndLines rest
  | '\n' :: rest => skipSpacesAndLines rest
  | '\r' :: '\n' :: rest => skipSpacesAndLines rest
  | chars => chars

/-- The characters after the spaces, tabs, line ends and comments in front.  `inComment` tells
whether a comment has begun. -/
def skipTrivia : (inComment : Bool) → List Char → List Char
  | false, ' ' :: rest => skipTrivia false rest
  | false, '\t' :: rest => skipTrivia false rest
  | false, '#' :: rest => skipTrivia true rest
  | _, '\n' :: rest => skipTrivia false rest
  | _, '\r' :: '\n' :: rest => skipTrivia false rest
  | true, c :: rest => if isText c then skipTrivia true rest else c :: rest
  | _, chars => chars

/-- The characters after what may end a line: spaces and tabs, a comment, and the line end, which
the end of the text may stand for. -/
def endLine? (chars : List Char) : Option (List Char) :=
  let ending := match skipSpaces chars with
    | '#' :: rest => rest.dropWhile isText
    | rest => rest
  if ending = [] then some [] else lineEnd? ending

/-- Reads pieces until `close` reads the end, which may itself give some characters.  The number of
pieces is bounded by `fuel`. -/
def readPieces (close piece : Reader (List Char)) : (fuel : Nat) → Reader (List Char)
  | 0, _ => none
  | fuel + 1, chars =>
      match close chars with
      | some closed => some closed
      | none => do
          let (first, rest) ← piece chars
          let (more, rest) ← readPieces close piece fuel rest
          return (first ++ more, rest)

def readUntil (close piece : Reader (List Char)) : Reader (List Char) := fun chars =>
  readPieces close piece (chars.length + 1) chars

end SignedSession.Toml
