import SignedSession.Toml.Reader

/-!
# Quoted texts

A text stands between `"`, where a backslash begins an escape, or between `'`, where it does not.
Three quotes begin and end a text that may run over several lines; a line end right after the
opening quotes does not count, every other one counts as a line feed, and one or two quotes may
stand right before the closing three.
-/

set_option autoImplicit false

namespace SignedSession.Toml.Quoted

def hexValue? (c : Char) : Option Nat :=
  if '0' ≤ c ∧ c ≤ '9' then some (c.toNat - 48)
  else if 'a' ≤ c ∧ c ≤ 'f' then some (c.toNat - 87)
  else if 'A' ≤ c ∧ c ≤ 'F' then some (c.toNat - 55)
  else none

/-- The character whose code point is written in `count` hexadecimal digits. -/
def codePoint (count : Nat) : Reader (List Char) := fun chars => do
  let digits ← (chars.take count).mapM hexValue?
  let code := digits.foldl (fun value digit => value * 16 + digit) 0
  if digits.length = count ∧ code.isValidChar then
    return ([Char.ofNat code], chars.drop count)
  else none

def escape : Reader (List Char)
  | 'b' :: rest => some (['\x08'], rest)
  | 't' :: rest => some (['\t'], rest)
  | 'n' :: rest => some (['\n'], rest)
  | 'f' :: rest => some (['\x0c'], rest)
  | 'r' :: rest => some (['\r'], rest)
  | '\"' :: rest => some (['\"'], rest)
  | '\\' :: rest => some (['\\'], rest)
  | 'u' :: rest => codePoint 4 rest
  | 'U' :: rest => codePoint 8 rest
  | _ => none

/-- A backslash at the end of a line, with all spaces and line ends after it: nothing. -/
def lineContinuation : Reader (List Char) := fun chars =>
  (lineEnd? (skipSpaces chars)).map fun rest => ([], skipSpacesAndLines rest)

def plain (excluded : List Char) : Reader (List Char)
  | c :: rest => if isText c && !excluded.contains c then some ([c], rest) else none
  | [] => none

def lineFeed : Reader (List Char) := fun chars =>
  (lineEnd? chars).map fun rest => (['\n'], rest)

def closeOne (quote : Char) : Reader (List Char)
  | c :: rest => if c = quote then some ([], rest) else none
  | [] => none

/-- The closing three quotes, with the one or two quotes before them. -/
def closeThree (quote : Char) : Reader (List Char) := fun chars =>
  let run := (chars.takeWhile (· == quote)).length
  if 3 ≤ run then some (List.replicate (min 2 (run - 3)) quote, chars.drop (min 5 run)) else none

def basicPiece : Reader (List Char)
  | '\\' :: rest => escape rest
  | chars => plain ['\"'] chars

def basicBlockPiece : Reader (List Char)
  | '\\' :: rest => (lineContinuation rest).orElse fun _ => escape rest
  | chars => (lineFeed chars).orElse fun _ => plain [] chars

def literalBlockPiece : Reader (List Char) := fun chars =>
  (lineFeed chars).orElse fun _ => plain [] chars

def basic : Reader (List Char) := readUntil (closeOne '\"') basicPiece

def literal : Reader (List Char) := readUntil (closeOne '\'') (plain ['\''])

/-- The characters after the line end right behind the opening quotes, if there is one. -/
def openBlock (chars : List Char) : List Char := (lineEnd? chars).getD chars

def basicBlock : Reader (List Char) := fun chars =>
  readUntil (closeThree '\"') basicBlockPiece (openBlock chars)

def literalBlock : Reader (List Char) := fun chars =>
  readUntil (closeThree '\'') literalBlockPiece (openBlock chars)

def read : Reader (List Char)
  | '\"' :: '\"' :: '\"' :: rest => basicBlock rest
  | '\'' :: '\'' :: '\'' :: rest => literalBlock rest
  | '\"' :: rest => basic rest
  | '\'' :: rest => literal rest
  | _ => none

end SignedSession.Toml.Quoted
