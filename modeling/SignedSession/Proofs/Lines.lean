import SignedSession.Proofs.Decimal
import SignedSession.Toml.Document

/-!
# Plain lines of a document

A header with a bare name, and an assignment of a number to a bare name, each on a line of its own.  Such
lines are read one by one, whatever follows them.
-/

set_option autoImplicit false

namespace SignedSession.Toml

/-! ## Bare names -/

def IsBareName (name : List Char) : Prop := name ≠ [] ∧ name.all Key.isBare = true

instance (name : List Char) : Decidable (IsBareName name) := inferInstanceAs (Decidable (_ ∧ _))

variable {name : List Char}

theorem IsBareName.isBare (bare : IsBareName name) : ∀ c ∈ name, Key.isBare c = true :=
  List.all_eq_true.mp bare.2

theorem isBareName_toDigits (number : Nat) : IsBareName (Nat.toDigits 10 number) := by
  refine ⟨Nat.toDigits_ne_nil, List.all_eq_true.mpr ?_⟩
  intro c member
  have digit := Scalar.allDigits_toDigits number c member
  simp [Key.isBare, Char.isAlphanum, digit]

/-- Bare names begin with none of the characters that begin something else. -/
theorem IsBareName.ne_cons (bare : IsBareName name) {c : Char} (notBare : Key.isBare c = false)
    (rest others : List Char) : name ++ rest ≠ c :: others := by
  cases name with
  | nil => exact absurd rfl bare.1
  | cons first more =>
      have isBare := bare.isBare first List.mem_cons_self
      intro same
      cases same
      exact Bool.false_ne_true (notBare.symm.trans isBare)

theorem skipSpaces_of_ne_cons {chars : List Char} (noBlank : ∀ rest, chars ≠ ' ' :: rest)
    (noTab : ∀ rest, chars ≠ '\t' :: rest) : skipSpaces chars = chars := by
  cases chars with
  | nil => rfl
  | cons c rest =>
      have notSpace : isSpace c = false := by
        rw [isSpace, Bool.or_eq_false_iff, beq_eq_false_iff_ne, beq_eq_false_iff_ne]
        exact ⟨fun same => noBlank rest (by rw [same]), fun same => noTab rest (by rw [same])⟩
      exact List.dropWhile_cons_of_neg (by simp [notSpace])

theorem IsBareName.skipSpaces_append (bare : IsBareName name) (rest : List Char) :
    skipSpaces (name ++ rest) = name ++ rest :=
  skipSpaces_of_ne_cons (bare.ne_cons rfl rest) (bare.ne_cons rfl rest)

namespace Key

theorem segment_append (bare : IsBareName name) {c : Char} (ends : isBare c = false)
    (rest : List Char) : segment (name ++ c :: rest) = some (String.ofList name, c :: rest) := by
  have stops : ¬ isBare c = true := by simp [ends]
  rw [segment.eq_3 _ (bare.ne_cons rfl _) (bare.ne_cons rfl _),
    List.takeWhile_append_of_pos bare.isBare, List.takeWhile_cons_of_neg stops, List.append_nil,
    List.dropWhile_append_of_pos bare.isBare, List.dropWhile_cons_of_neg stops, if_neg bare.1]

theorem read_append (bare : IsBareName name) {c : Char} (ends : isBare c = false)
    {rest after : List Char} (spaces : skipSpaces (c :: rest) = after)
    (noPoint : ∀ others, after ≠ '.' :: others) :
    read (name ++ c :: rest) = some (⟨[], String.ofList name⟩, after) := by
  rw [read, segments, bare.skipSpaces_append, segment_append bare ends, Option.bind_eq_bind,
    Option.bind_some]
  dsimp only
  rw [spaces]
  split
  · next point => exact absurd rfl (noPoint _)
  · rfl

end Key

/-! ## Statements -/

theorem statement_header (bare : IsBareName name) (rest : List Char) :
    statement ('[' :: (name ++ ']' :: rest)) = some (.header ⟨[], String.ofList name⟩, rest) := by
  have bracket : skipSpaces (']' :: rest) = ']' :: rest := rfl
  rw [statement.eq_2 _ (bare.ne_cons rfl _), Key.read_append bare rfl bracket (by simp)]
  rfl

theorem value_toDigits {number : Nat} (fits : Scalar.FitsInt64 number) (depth : Nat) {c : Char}
    (ends : Scalar.isWordChar c = false) (rest : List Char) :
    value depth (Nat.toDigits 10 number ++ c :: rest) = some (.integer number, c :: rest) := by
  have bare := isBareName_toDigits number
  have isLeaf : leaf (Nat.toDigits 10 number ++ c :: rest) = some (.integer number, c :: rest) := by
    rw [leaf.eq_3 _ (bare.ne_cons rfl _) (bare.ne_cons rfl _), Scalar.read_toDigits fits ends]
  cases depth with
  | zero => rw [value, isLeaf]
  | succ depth => rw [value.eq_4 _ _ (bare.ne_cons rfl _) (bare.ne_cons rfl _), isLeaf]

theorem assignment_append (bare : IsBareName name) (read : Reader Value) {written : List Char}
    (begins : skipSpaces written = written) :
    assignment read (name ++ ' ' :: '=' :: ' ' :: written) =
      (read written).map fun (value, rest) => (⟨⟨[], String.ofList name⟩, value⟩, rest) := by
  have equals : skipSpaces (' ' :: '=' :: ' ' :: written) = '=' :: ' ' :: written := rfl
  have blank : skipSpaces (' ' :: written) = written := begins
  rw [assignment, Key.read_append bare rfl equals (by simp)]
  change (read (skipSpaces (' ' :: written))).bind _ = _
  rw [blank]
  cases read written <;> rfl

theorem statement_assign (bare : IsBareName name) {number : Nat} (fits : Scalar.FitsInt64 number)
    (rest : List Char) :
    statement (name ++ ' ' :: '=' :: ' ' :: (Nat.toDigits 10 number ++ '\n' :: rest)) =
      some (.assign ⟨⟨[], String.ofList name⟩, .integer number⟩, '\n' :: rest) := by
  have begins := (isBareName_toDigits number).skipSpaces_append ('\n' :: rest)
  rw [statement.eq_3 _ (fun _ => bare.ne_cons rfl _ _) (bare.ne_cons rfl _),
    assignment_append bare _ begins, value_toDigits fits 79 rfl]
  rfl

/-! ## Lines -/

/-- A statement is followed by the statements of the lines after its own. -/
theorem statements_line {chars rest : List Char} {first : Statement}
    (read : statement chars = some (first, '\n' :: rest))
    (begins : ∀ c ∈ [' ', '\t', '#', '\n', '\r'], ∀ others, chars ≠ c :: others)
    (nonempty : chars ≠ []) (fuel : Nat) :
    statements (fuel + 1) chars = (statements fuel rest).map (first :: ·) := by
  have ends : endLine? ('\n' :: rest) = some rest := rfl
  rw [statements, skipSpaces_of_ne_cons (begins ' ' (by simp)) (begins '\t' (by simp))]
  cases chars with
  | nil => exact absurd rfl nonempty
  | cons c others =>
      have notTrivia : ¬ (c = '#' ∨ c = '\n' ∨ c = '\r') := by
        rintro (rfl | rfl | rfl)
        · exact begins '#' (by simp) _ rfl
        · exact begins '\n' (by simp) _ rfl
        · exact begins '\r' (by simp) _ rfl
      dsimp only
      simp only [if_neg notTrivia, read, ends, Option.bind_eq_bind, Option.bind_some]
      cases statements fuel rest <;> rfl

theorem statements_header (bare : IsBareName name) (rest : List Char) (fuel : Nat) :
    statements (fuel + 1) ('[' :: (name ++ ']' :: '\n' :: rest)) =
      (statements fuel rest).map (.header ⟨[], String.ofList name⟩ :: ·) := by
  apply statements_line (statement_header bare _)
  · simp
  · simp

theorem statements_assign (bare : IsBareName name) {number : Nat} (fits : Scalar.FitsInt64 number)
    (rest : List Char) (fuel : Nat) :
    statements (fuel + 1) (name ++ ' ' :: '=' :: ' ' :: (Nat.toDigits 10 number ++ '\n' :: rest)) =
      (statements fuel rest).map (.assign ⟨⟨[], String.ofList name⟩, .integer number⟩ :: ·) := by
  apply statements_line (statement_assign bare fits rest)
  · have notBare : ∀ c ∈ [' ', '\t', '#', '\n', '\r'], Key.isBare c = false := by simp [Key.isBare]
    intro c member others
    exact bare.ne_cons (notBare c member) _ _
  · simp [bare.1]

end SignedSession.Toml
