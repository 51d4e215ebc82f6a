import SignedSession.Toml.Key
import SignedSession.Toml.Value

/-!
# Building tables

Entries are added to a tree of tables one at a time.  A key never gets a second value, and a table
is only extended in the manner in which it came about: a table written as a value is closed, one
with a header of its own takes no dotted keys from elsewhere, and one made by dotted keys gets no
header.
-/

set_option autoImplicit false

namespace SignedSession.Toml

structure Assignment where
  key : Key
  value : Value

namespace Entries

def replace (entries : Entries) (name : String) (value : Value) : Entries :=
  entries.map fun entry => if entry.1 = name then (name, value) else entry

def insert (entries : Entries) (name : String) (value : Value) : Entries :=
  entries ++ [(name, value)]

/-- What a path leads through: tables on the way to a header's table, or to a dotted key's. -/
inductive Route
  | toHeader
  | toDotted
deriving DecidableEq

def Route.origin : Route → Origin
  | toHeader => .implied
  | toDotted => .dotted

def Route.admits : Route → Origin → Bool
  | _, .inline => false
  | toHeader, _ => true
  | toDotted, .header => false
  | toDotted, _ => true

/-- The entries after `change` has been applied to the table at the end of a path.  Tables missing
on the way are made; an array of tables is entered at its last element. -/
def alter (route : Route) (change : Origin → Entries → Option Entries) :
    (path : List String) → (origin : Origin) → Entries → Option Entries
  | [], origin, entries => change origin entries
  | name :: path, _, entries =>
      match entries.lookup name with
      | none => do
          let inner ← alter route change path route.origin []
          return insert entries name (.table route.origin inner)
      | some (.table origin inner) =>
          if route.admits origin then do
            let inner ← alter route change path origin inner
            return replace entries name (.table origin inner)
          else none
      | some (.array .header elements) =>
          match elements.getLast? with
          | some (.table origin inner) => do
              let inner ← alter route change path origin inner
              return replace entries name
                (.array .header (elements.dropLast ++ [.table origin inner]))
          | _ => none
      | some _ => none

/-- Puts a value under a name that is free.  The last table on the way of a dotted key has to be
one that dotted keys made. -/
def assignIn (dotted : Bool) (name : String) (value : Value) (origin : Origin) (entries : Entries) :
    Option Entries :=
  if dotted && origin != .dotted then none
  else if (entries.lookup name).isSome then none
  else some (insert entries name value)

def assign (entries : Entries) (assignment : Assignment) : Option Entries :=
  let parents := assignment.key.parents
  alter .toDotted (assignIn (!parents.isEmpty) assignment.key.name assignment.value) parents .header
    entries

def assignAll (entries : Entries) (assignments : List Assignment) : Option Entries :=
  assignments.foldlM assign entries

end Entries
end SignedSession.Toml
