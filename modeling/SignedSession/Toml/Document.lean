import SignedSession.Toml.Scalar
import SignedSession.Toml.Table

/-!
# Documents

A document is a sequence of lines: headers, which open a table, assignments to the table opened
last, and lines without either.  `parse?` gives the tree that the lines describe, or refuses the
text.  Arrays and tables written as values are nested less than 80 deep.
-/

set_option autoImplicit false

namespace SignedSession.Toml

/-! ## Values -/

def leaf : Reader Value
  | '\"' :: rest => (Quoted.read ('\"' :: rest)).map fun (chars, rest) =>
      (.string (String.ofList chars), rest)
  | '\'' :: rest => (Quoted.read ('\'' :: rest)).map fun (chars, rest) =>
      (.string (String.ofList chars), rest)
  | chars => Scalar.read chars

def assignment (value : Reader Value) : Reader Assignment := fun chars => do
  let (key, rest) ← Key.read chars
  let (_, rest) ← exactly '=' rest
  let (value, rest) ← value (skipSpaces rest)
  return (⟨key, value⟩, rest)

/-- The elements of an array up to its closing bracket, at most `fuel` of them. -/
def elements (value : Reader Value) : (fuel : Nat) → Reader (List Value)
  | 0, _ => none
  | fuel + 1, chars =>
      match skipTrivia false chars with
      | ']' :: rest => some ([], rest)
      | chars => do
          let (element, rest) ← value chars
          match skipTrivia false rest with
          | ',' :: rest =>
              let (more, rest) ← elements value fuel rest
              return (element :: more, rest)
          | ']' :: rest => return ([element], rest)
          | _ => none

def assignments (value : Reader Value) : (fuel : Nat) → Reader (List Assignment)
  | 0, _ => none
  | fuel + 1, chars => do
      let (first, rest) ← assignment value chars
      match skipSpaces rest with
      | ',' :: rest =>
          let (more, rest) ← assignments value fuel rest
          return (first :: more, rest)
      | '\x7d' :: rest => return ([first], rest)
      | _ => none

def array (value : Reader Value) : Reader Value := fun chars => do
  let (elements, rest) ← elements value (chars.length + 1) chars
  return (.array .inline elements, rest)

def inlineTable (value : Reader Value) : Reader Value := fun chars =>
  match skipSpaces chars with
  | '\x7d' :: rest => some (.table .inline [], rest)
  | _ => do
      let (assignments, rest) ← assignments value (chars.length + 1) chars
      let entries ← Entries.assignAll [] assignments
      return (.table .inline entries, rest)

/-- A value in which arrays and tables are nested at most `depth` deep. -/
def value : (depth : Nat) → Reader Value
  | 0, chars => leaf chars
  | depth + 1, '[' :: rest => array (value depth) rest
  | depth + 1, '\x7b' :: rest => inlineTable (value depth) rest
  | _ + 1, chars => leaf chars

/-! ## Lines -/

inductive Statement
  | header (key : Key)
  /-- A new table is opened at the end of the array of a key. -/
  | arrayHeader (key : Key)
  | assign (assignment : Assignment)

def statement : Reader Statement
  | '[' :: '[' :: rest => do
      let (key, rest) ← Key.read rest
      let (_, rest) ← exactly ']' rest
      let (_, rest) ← exactly ']' rest
      return (.arrayHeader key, rest)
  | '[' :: rest => do
      let (key, rest) ← Key.read rest
      let (_, rest) ← exactly ']' rest
      return (.header key, rest)
  | chars => do
      let (assignment, rest) ← assignment (value 79) chars
      return (.assign assignment, rest)

def statements : (fuel : Nat) → List Char → Option (List Statement)
  | 0, _ => none
  | fuel + 1, chars =>
      match skipSpaces chars with
      | [] => some []
      | c :: rest =>
          if c = '#' ∨ c = '\n' ∨ c = '\r' then do
            let rest ← endLine? (c :: rest)
            statements fuel rest
          else do
            let (first, rest) ← statement (c :: rest)
            let rest ← endLine? rest
            let more ← statements fuel rest
            return first :: more

/-! ## Trees -/

structure Section where
  isArray : Bool
  key : Key
  assignments : List Assignment

/-- The assignments before the first header, and the sections that follow. -/
def sections : List Statement → List Assignment × List Section
  | [] => ([], [])
  | .assign assignment :: rest =>
      let (assignments, later) := sections rest
      (assignment :: assignments, later)
  | .header key :: rest =>
      let (assignments, later) := sections rest
      ([], ⟨false, key, assignments⟩ :: later)
  | .arrayHeader key :: rest =>
      let (assignments, later) := sections rest
      ([], ⟨true, key, assignments⟩ :: later)

/-- Opens the table of a section in the table that holds it.  The name has to be free, or that of a
table that headers have only led through; in an array of tables it is always a new table. -/
def Section.openIn (part : Section) (_ : Origin) (entries : Entries) : Option Entries :=
  let name := part.key.name
  match part.isArray, entries.lookup name with
  | false, none => do
      let inner ← Entries.assignAll [] part.assignments
      return Entries.insert entries name (.table .header inner)
  | false, some (.table .implied inner) => do
      let inner ← Entries.assignAll inner part.assignments
      return Entries.replace entries name (.table .header inner)
  | true, none => do
      let inner ← Entries.assignAll [] part.assignments
      return Entries.insert entries name (.array .header [.table .header inner])
  | true, some (.array .header elements) => do
      let inner ← Entries.assignAll [] part.assignments
      return Entries.replace entries name (.array .header (elements ++ [.table .header inner]))
  | _, _ => none

def addSection (root : Entries) (part : Section) : Option Entries :=
  Entries.alter .toHeader part.openIn part.key.parents .header root

def assemble (statements : List Statement) : Option Entries := do
  let (assignments, later) := sections statements
  let root ← Entries.assignAll [] assignments
  later.foldlM addSection root

/-- The text without the mark that may stand at its beginning. -/
def skipByteOrderMark : List Char → List Char
  | '\ufeff' :: rest => rest
  | chars => chars

/-- The tree that a document describes, or nothing if the text is no document. -/
def parse? (text : String) : Option Entries := do
  let chars := skipByteOrderMark text.toList
  let statements ← statements (chars.length + 1) chars
  assemble statements

end SignedSession.Toml
