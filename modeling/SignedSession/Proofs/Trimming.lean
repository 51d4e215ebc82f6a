import SignedSession.Text.Blank
import Mathlib.Data.List.DropRight

/-!
# Blanks around a text

Trimming takes away the blanks around a text and nothing else: `trim text = core` says that `text` is
`core` with blanks before and after it, and that `core` neither begins nor ends with one.  More
blanks around a text therefore make no difference.
-/

set_option autoImplicit false

namespace SignedSession.Blank

/-! ## Lists of characters -/

def AllBlank (characters : List Char) : Prop := ∀ c ∈ characters, isBlank c = true

instance (characters : List Char) : Decidable (AllBlank characters) :=
  List.decidableBAll (fun c => isBlank c = true) characters

/-- Whether characters neither begin nor end with a blank. -/
def BareEnds (characters : List Char) : Prop :=
  (∀ c ∈ characters.head?, isBlank c = false) ∧ ∀ c ∈ characters.getLast?, isBlank c = false

theorem dropEndWhile_eq_rdropWhile {α : Type} (p : α → Bool) (list : List α) :
    dropEndWhile p list = list.rdropWhile p := rfl

theorem trimChars_append {before after : List Char} (beforeBlank : AllBlank before)
    (afterBlank : AllBlank after) (middle : List Char) :
    trimChars (before ++ middle ++ after) = trimChars middle := by
  rw [trimChars, trimChars, List.append_assoc, List.dropWhile_append_of_pos beforeBlank,
    List.dropWhile_append]
  cases rest : middle.dropWhile isBlank with
  | nil =>
      rw [List.isEmpty_nil, if_pos rfl, List.dropWhile_eq_nil_iff.mpr afterBlank]
  | cons first others =>
      rw [List.isEmpty_cons, if_neg Bool.false_ne_true, dropEndWhile_append_of_all _ afterBlank]

theorem trimChars_of_bareEnds {characters : List Char} (bare : BareEnds characters) :
    trimChars characters = characters := by
  obtain ⟨begins, ends⟩ := bare
  have front : characters.dropWhile isBlank = characters := by
    cases characters with
    | nil => rfl
    | cons first others =>
        have notBlank := begins first rfl
        exact List.dropWhile_cons_of_neg (by simp [notBlank])
  rw [trimChars, front, dropEndWhile_eq_rdropWhile, List.rdropWhile_eq_self_iff]
  intro nonempty
  have notBlank := ends _ (List.getLast?_eq_some_getLast nonempty)
  simp [notBlank]

theorem isBlank_head_dropWhile (characters : List Char) {c : Char}
    (first : (characters.dropWhile isBlank).head? = some c) : isBlank c = false := by
  have notBlank := List.head?_dropWhile_not isBlank characters
  rw [first] at notBlank
  exact notBlank

theorem exists_trimChars (characters : List Char) :
    ∃ before after, characters = before ++ trimChars characters ++ after ∧ AllBlank before ∧
      AllBlank after ∧ BareEnds (trimChars characters) := by
  have back : trimChars characters ++ (characters.dropWhile isBlank).rtakeWhile isBlank =
      characters.dropWhile isBlank := List.rdropWhile_append_rtakeWhile
  refine ⟨characters.takeWhile isBlank, (characters.dropWhile isBlank).rtakeWhile isBlank, ?_,
    fun c => List.mem_takeWhile_imp, fun c => List.mem_rtakeWhile_imp, ?_, ?_⟩
  · rw [List.append_assoc, back, List.takeWhile_append_dropWhile]
  · intro c first
    apply isBlank_head_dropWhile characters
    rw [← back, List.head?_append, first]
    rfl
  · intro c last
    have nonempty : trimChars characters ≠ [] := by
      intro empty
      rw [empty] at last
      cases last
    have notBlank := List.rdropWhile_last_not isBlank (characters.dropWhile isBlank) nonempty
    rw [List.getLast?_eq_some_getLast nonempty] at last
    cases last
    exact eq_false_of_ne_true notBlank

/-! ## Texts -/

/-- Whether one text is another one with the blanks around it taken away. -/
def IsCore (core text : String) : Prop :=
  ∃ before after, text = before ++ core ++ after ∧ AllBlank before.toList ∧
    AllBlank after.toList ∧ BareEnds core.toList

theorem toList_trim (text : String) : (trim text).toList = trimChars text.toList :=
  String.toList_ofList

theorem trim_append {before after : String} (beforeBlank : AllBlank before.toList)
    (afterBlank : AllBlank after.toList) (text : String) :
    trim (before ++ text ++ after) = trim text := by
  rw [trim, String.toList_append, String.toList_append, trimChars_append beforeBlank afterBlank]
  rfl

theorem trim_of_bareEnds {text : String} (bare : BareEnds text.toList) : trim text = text := by
  rw [trim, trimChars_of_bareEnds bare, String.ofList_toList]

theorem trim_eq_iff {text core : String} : trim text = core ↔ IsCore core text := by
  constructor
  · rintro rfl
    obtain ⟨before, after, split, beforeBlank, afterBlank, bare⟩ := exists_trimChars text.toList
    refine ⟨String.ofList before, String.ofList after, ?_, ?_, ?_, ?_⟩
    · apply String.toList_inj.mp
      simpa [toList_trim] using split
    · rwa [String.toList_ofList]
    · rwa [String.toList_ofList]
    · rwa [toList_trim]
  · rintro ⟨before, after, rfl, beforeBlank, afterBlank, bare⟩
    rw [trim_append beforeBlank afterBlank, trim_of_bareEnds bare]

end SignedSession.Blank
