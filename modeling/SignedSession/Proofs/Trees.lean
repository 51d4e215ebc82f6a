import SignedSession.Proofs.Tables
import Mathlib.Tactic.SplitIfs

/-!
# Trees of documents

Whatever a document says, its tree is well formed: what is read as a value is, at every depth, and so is
what the lines of the document make of the values.  `wellFormed_of_parse?` is the main statement.
-/

set_option autoImplicit false

namespace SignedSession.Toml

/-! ## Values -/

/-- Whether all that a reader takes off the front of characters is of one kind. -/
def Yields {α : Type} (reader : Reader α) (kind : α → Prop) : Prop :=
  ∀ chars result rest, reader chars = some (result, rest) → kind result

theorem Scalar.wellFormed_of_ofWord? {word : List Char} {value : Value}
    (read : ofWord? word = some value) : value.WellFormed := by
  rw [ofWord?] at read
  split_ifs at read
  · cases read
    exact .boolean true
  · cases read
    exact .boolean false
  · cases read
    exact .dateTime _
  · cases read
    exact .float _
  · obtain ⟨number, isInteger, rfl⟩ := Option.map_eq_some_iff.mp read
    have fits := (Option.filter_eq_some_iff.mp isInteger).2
    exact .integer (of_decide_eq_true fits)

theorem Scalar.yields_read : Yields read Value.WellFormed := by
  intro chars value rest found
  unfold read at found
  dsimp only at found
  split at found
  · split_ifs at found
    · cases found
      exact .dateTime _
    · cases found
      exact .dateTime _
  · obtain ⟨word, isWord, same⟩ := Option.map_eq_some_iff.mp found
    cases same
    exact wellFormed_of_ofWord? isWord

theorem yields_leaf : Yields leaf Value.WellFormed := by
  intro chars value rest found
  unfold leaf at found
  split at found
  · obtain ⟨⟨text, after⟩, -, same⟩ := Option.map_eq_some_iff.mp found
    cases same
    exact .string _
  · obtain ⟨⟨text, after⟩, -, same⟩ := Option.map_eq_some_iff.mp found
    cases same
    exact .string _
  · exact Scalar.yields_read _ _ _ found

section Nested

variable {value : Reader Value}

theorem yields_assignment (values : Yields value Value.WellFormed) :
    Yields (assignment value) fun assignment => assignment.value.WellFormed := by
  intro chars result rest found
  simp only [assignment, Option.bind_eq_bind, Option.bind_eq_some_iff] at found
  obtain ⟨⟨key, afterKey⟩, -, ⟨sign, afterSign⟩, -, ⟨inner, afterValue⟩, isValue, same⟩ := found
  cases same
  exact values _ _ _ isValue

theorem yields_elements (values : Yields value Value.WellFormed) (fuel : Nat) :
    Yields (elements value fuel) fun elements => ∀ element ∈ elements, element.WellFormed := by
  induction fuel with
  | zero =>
      intro chars result rest found
      cases found
  | succ fuel hypothesis =>
      intro chars result rest found
      rw [elements] at found
      split at found
      · cases found
        simp
      · simp only [Option.bind_eq_bind, Option.bind_eq_some_iff] at found
        obtain ⟨⟨first, afterFirst⟩, isValue, found⟩ := found
        dsimp only at found
        split at found
        · simp only [Option.bind_eq_some_iff] at found
          obtain ⟨⟨more, afterMore⟩, areMore, same⟩ := found
          cases same
          exact List.forall_mem_cons.mpr ⟨values _ _ _ isValue, hypothesis _ _ _ areMore⟩
        · cases found
          exact List.forall_mem_singleton.mpr (values _ _ _ isValue)
        · cases found

theorem yields_assignments (values : Yields value Value.WellFormed) (fuel : Nat) :
    Yields (assignments value fuel) fun assignments =>
      ∀ assignment ∈ assignments, assignment.value.WellFormed := by
  induction fuel with
  | zero =>
      intro chars result rest found
      cases found
  | succ fuel hypothesis =>
      intro chars result rest found
      simp only [assignments, Option.bind_eq_bind, Option.bind_eq_some_iff] at found
      obtain ⟨⟨first, afterFirst⟩, isFirst, found⟩ := found
      have isValue := yields_assignment values _ _ _ isFirst
      dsimp only at found
      split at found
      · simp only [Option.bind_eq_some_iff] at found
        obtain ⟨⟨more, afterMore⟩, areMore, same⟩ := found
        cases same
        exact List.forall_mem_cons.mpr ⟨isValue, hypothesis _ _ _ areMore⟩
      · cases found
        exact List.forall_mem_singleton.mpr isValue
      · cases found

theorem yields_array (values : Yields value Value.WellFormed) :
    Yields (array value) Value.WellFormed := by
  intro chars result rest found
  simp only [array, Option.bind_eq_bind, Option.bind_eq_some_iff] at found
  obtain ⟨⟨elements, after⟩, areElements, same⟩ := found
  cases same
  exact .array _ (yields_elements values _ _ _ _ areElements)

theorem yields_inlineTable (values : Yields value Value.WellFormed) :
    Yields (inlineTable value) Value.WellFormed := by
  intro chars result rest found
  rw [inlineTable] at found
  split at found
  · cases found
    exact Value.wellFormed_table_iff.mpr Entries.wellFormed_nil
  · simp only [Option.bind_eq_bind, Option.bind_eq_some_iff] at found
    obtain ⟨⟨assignments, after⟩, areAssignments, entries, assigned, same⟩ := found
    cases same
    exact Value.wellFormed_table_iff.mpr (Entries.wellFormed_nil.assignAll
      (yields_assignments values _ _ _ _ areAssignments) assigned)

end Nested

theorem yields_value (depth : Nat) : Yields (value depth) Value.WellFormed := by
  induction depth with
  | zero => exact yields_leaf
  | succ depth hypothesis =>
      intro chars result rest found
      by_cases opensArray : ∃ inner, chars = '[' :: inner
      · obtain ⟨inner, rfl⟩ := opensArray
        exact yields_array hypothesis _ _ _ found
      · by_cases opensTable : ∃ inner, chars = '\x7b' :: inner
        · obtain ⟨inner, rfl⟩ := opensTable
          exact yields_inlineTable hypothesis _ _ _ found
        · rw [value.eq_4 _ _ (fun inner same => opensArray ⟨inner, same⟩)
            (fun inner same => opensTable ⟨inner, same⟩)] at found
          exact yields_leaf _ _ _ found

/-! ## Lines -/

def Statement.WellFormed : Statement → Prop
  | .assign assignment => assignment.value.WellFormed
  | .header _ => True
  | .arrayHeader _ => True

theorem yields_statement : Yields statement Statement.WellFormed := by
  intro chars result rest found
  unfold statement at found
  split at found
  · simp only [Option.bind_eq_bind, Option.bind_eq_some_iff] at found
    obtain ⟨_, -, _, -, _, -, same⟩ := found
    cases same
    trivial
  · simp only [Option.bind_eq_bind, Option.bind_eq_some_iff] at found
    obtain ⟨_, -, _, -, same⟩ := found
    cases same
    trivial
  · simp only [Option.bind_eq_bind, Option.bind_eq_some_iff] at found
    obtain ⟨⟨assigned, after⟩, isAssignment, same⟩ := found
    cases same
    exact yields_assignment (yields_value 79) _ _ _ isAssignment

theorem wellFormed_of_statements {fuel : Nat} {chars : List Char} {result : List Statement}
    (found : statements fuel chars = some result) :
    ∀ statement ∈ result, statement.WellFormed := by
  induction fuel generalizing chars result with
  | zero => cases found
  | succ fuel hypothesis =>
      rw [statements] at found
      split at found
      · cases found
        simp
      · split at found
        · simp only [Option.bind_eq_bind, Option.bind_eq_some_iff] at found
          obtain ⟨rest, -, found⟩ := found
          exact hypothesis found
        · simp only [Option.bind_eq_bind, Option.bind_eq_some_iff] at found
          obtain ⟨⟨first, afterFirst⟩, isFirst, rest, -, more, areMore, same⟩ := found
          cases same
          exact List.forall_mem_cons.mpr ⟨yields_statement _ _ _ isFirst, hypothesis areMore⟩

/-! ## Sections -/

theorem values_of_sections {statements : List Statement}
    (all : ∀ statement ∈ statements, statement.WellFormed) :
    (∀ assignment ∈ (sections statements).1, assignment.value.WellFormed) ∧
      ∀ part ∈ (sections statements).2, ∀ assignment ∈ part.assignments,
        assignment.value.WellFormed := by
  induction statements with
  | nil => simp [sections]
  | cons first others hypothesis =>
      obtain ⟨isFirst, areOthers⟩ := List.forall_mem_cons.mp all
      obtain ⟨own, later⟩ := hypothesis areOthers
      cases first with
      | assign assignment => exact ⟨List.forall_mem_cons.mpr ⟨isFirst, own⟩, later⟩
      | header key => exact ⟨by simp [sections], List.forall_mem_cons.mpr ⟨own, later⟩⟩
      | arrayHeader key => exact ⟨by simp [sections], List.forall_mem_cons.mpr ⟨own, later⟩⟩

theorem Section.wellFormed_of_openIn {part : Section} {origin : Origin} {entries result : Entries}
    (values : ∀ assignment ∈ part.assignments, assignment.value.WellFormed)
    (wellFormed : entries.WellFormed) (opened : part.openIn origin entries = some result) :
    result.WellFormed := by
  have newTable : ∀ inner, Entries.assignAll [] part.assignments = some inner →
      (Value.table .header inner).WellFormed := fun inner assigned =>
    Value.wellFormed_table_iff.mpr (Entries.wellFormed_nil.assignAll values assigned)
  rw [openIn] at opened
  split at opened
  · next free =>
      obtain ⟨inner, assigned, same⟩ := Option.bind_eq_some_iff.mp opened
      cases same
      exact wellFormed.insert free (newTable inner assigned)
  · next before found =>
      obtain ⟨inner, assigned, same⟩ := Option.bind_eq_some_iff.mp opened
      cases same
      have isBefore := Value.wellFormed_table_iff.mp (wellFormed.of_lookup found)
      exact wellFormed.replace (Value.wellFormed_table_iff.mpr (isBefore.assignAll values assigned))
  · next free =>
      obtain ⟨inner, assigned, same⟩ := Option.bind_eq_some_iff.mp opened
      cases same
      refine wellFormed.insert free (Value.wellFormed_array_iff.mpr ?_)
      exact List.forall_mem_singleton.mpr (newTable inner assigned)
  · next elements found =>
      obtain ⟨inner, assigned, same⟩ := Option.bind_eq_some_iff.mp opened
      cases same
      have areElements := Value.wellFormed_array_iff.mp (wellFormed.of_lookup found)
      refine wellFormed.replace (Value.wellFormed_array_iff.mpr ?_)
      exact List.forall_mem_append.mpr
        ⟨areElements, List.forall_mem_singleton.mpr (newTable inner assigned)⟩
  · cases opened

theorem wellFormed_of_assemble {statements : List Statement} {document : Entries}
    (all : ∀ statement ∈ statements, statement.WellFormed)
    (assembled : assemble statements = some document) : document.WellFormed := by
  obtain ⟨own, later⟩ := values_of_sections all
  obtain ⟨root, assigned, added⟩ := Option.bind_eq_some_iff.mp assembled
  have isRoot := Entries.wellFormed_nil.assignAll own assigned
  refine isRoot.foldlM ?_ added
  intro part member before after isBefore
  refine isBefore.alter ?_
  intro origin entries result isEntries
  exact Section.wellFormed_of_openIn (later part member) isEntries

theorem wellFormed_of_parse? {text : String} {document : Entries}
    (parsed : parse? text = some document) : document.WellFormed := by
  obtain ⟨statements, found, assembled⟩ := Option.bind_eq_some_iff.mp parsed
  exact wellFormed_of_assemble (wellFormed_of_statements found) assembled

end SignedSession.Toml
