/-!
# Blank characters

The characters with the Unicode property White_Space, and texts without the blanks at their ends.
-/

set_option autoImplicit false

namespace SignedSession.Blank

/-- The code points with the property White_Space, as ranges that include both ends. -/
def ranges : List (Nat × Nat) :=
  [(0x9, 0xD), (0x20, 0x20), (0x85, 0x85), (0xA0, 0xA0), (0x1680, 0x1680), (0x2000, 0x200A),
    (0x2028, 0x2029), (0x202F, 0x202F), (0x205F, 0x205F), (0x3000, 0x3000)]

def isBlank (c : Char) : Bool :=
  ranges.any fun (first, last) => first ≤ c.toNat && c.toNat ≤ last

def dropEndWhile {α : Type} (p : α → Bool) (list : List α) : List α :=
  (list.reverse.dropWhile p).reverse

def trimChars (chars : List Char) : List Char :=
  dropEndWhile isBlank (chars.dropWhile isBlank)

def trim (text : String) : String :=
  String.ofList (trimChars text.toList)

theorem dropEndWhile_append_of_all {α : Type} {p : α → Bool} (list : List α) {ending : List α}
    (all : ∀ x ∈ ending, p x = true) : dropEndWhile p (list ++ ending) = dropEndWhile p list := by
  have reversed : ∀ x ∈ ending.reverse, p x = true := fun x h => all x (List.mem_reverse.mp h)
  rw [dropEndWhile, dropEndWhile, List.reverse_append, List.dropWhile_append_of_pos reversed]

end SignedSession.Blank
