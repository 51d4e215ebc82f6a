/-!
# Values

The tree that a document describes.  A table remembers how it came about, because that decides
whether later lines of the document may add to it.
-/

set_option autoImplicit false

namespace SignedSession.Toml

inductive Origin
  | inline
  /-- Opened by a header of its own. -/
  | header
  /-- On the way to the table of a header. -/
  | implied
  /-- On the way to the entry of a dotted key. -/
  | dotted
deriving DecidableEq

/-- A value of a document.  A floating-point number and a date or time are kept as written. -/
inductive Value
  | string (text : String)
  | integer (value : Int)
  | float (literal : String)
  | boolean (value : Bool)
  | dateTime (literal : String)
  | array (origin : Origin) (elements : List Value)
  | table (origin : Origin) (entries : List (String × Value))

abbrev Entries : Type := List (String × Value)

end SignedSession.Toml
