import SignedSession.Toml.Document

/-!
# Tables without double entries

No table of a document has two entries of one name, however deep in the tree it stands, and every integer
fits 64 signed bits.  `Entries.WellFormed` says this of a tree.  Every step of building a tree keeps it,
so the entries of a table are a function of their names, and the order of its lines makes no difference.
-/

set_option autoImplicit false

namespace SignedSession.Toml

inductive Value.WellFormed : Value → Prop
  | string (text : String) : WellFormed (.string text)
  | integer {value : Int} (fits : Scalar.FitsInt64 value) : WellFormed (.integer value)
  | float (literal : String) : WellFormed (.float literal)
  | boolean (value : Bool) : WellFormed (.boolean value)
  | dateTime (literal : String) : WellFormed (.dateTime literal)
  | array (origin : Origin) {elements : List Value}
      (all : ∀ element ∈ elements, WellFormed element) : WellFormed (.array origin elements)
  | table (origin : Origin) {entries : List (String × Value)}
      (distinct : (entries.map Prod.fst).Nodup)
      (all : ∀ entry ∈ entries, WellFormed entry.2) : WellFormed (.table origin entries)

structure Entries.WellFormed (entries : Entries) : Prop where
  distinct : (entries.map Prod.fst).Nodup
  all : ∀ entry ∈ entries, entry.2.WellFormed

namespace Value

theorem wellFormed_table_iff {origin : Origin} {entries : Entries} :
    (table origin entries).WellFormed ↔ entries.WellFormed := by
  constructor
  · rintro ⟨⟩
    next distinct all => exact ⟨distinct, all⟩
  · rintro ⟨distinct, all⟩
    exact .table origin distinct all

theorem wellFormed_array_iff {origin : Origin} {elements : List Value} :
    (array origin elements).WellFormed ↔ ∀ element ∈ elements, element.WellFormed := by
  constructor
  · rintro ⟨⟩
    next all => exact all
  · exact .array origin

theorem wellFormed_integer_iff {value : Int} :
    (integer value).WellFormed ↔ Scalar.FitsInt64 value := by
  constructor
  · rintro ⟨⟩
    next fits => exact fits
  · exact .integer

end Value

namespace Entries

variable {entries result : Entries} {name : String} {value : Value}

/-! ## Looking up -/

theorem lookup_eq_none_iff : entries.lookup name = none ↔ name ∉ entries.map Prod.fst := by
  rw [List.lookup_eq_none_iff]
  simp only [bne_iff_ne, List.mem_map, not_exists, not_and]
  exact forall_congr' fun entry => forall_congr' fun _ => ne_comm

theorem mem_of_lookup (found : entries.lookup name = some value) : (name, value) ∈ entries := by
  obtain ⟨before, after, rfl, -⟩ := List.lookup_eq_some_iff.mp found
  simp

theorem lookup_of_mem (distinct : (entries.map Prod.fst).Nodup) (member : (name, value) ∈ entries) :
    entries.lookup name = some value := by
  induction entries with
  | nil => cases member
  | cons entry others hypothesis =>
      obtain ⟨absent, distinctOthers⟩ := List.nodup_cons.mp distinct
      rcases List.mem_cons.mp member with rfl | later
      · exact List.lookup_cons_self
      · have different : (name == entry.1) = false := by
          rw [beq_eq_false_iff_ne]
          rintro rfl
          exact absent (List.mem_map.mpr ⟨_, later, rfl⟩)
        rw [List.lookup_cons, different]
        exact hypothesis distinctOthers later

theorem WellFormed.lookup_eq_some_iff (wellFormed : entries.WellFormed) :
    entries.lookup name = some value ↔ (name, value) ∈ entries :=
  ⟨mem_of_lookup, lookup_of_mem wellFormed.distinct⟩

theorem WellFormed.of_lookup (wellFormed : entries.WellFormed)
    (found : entries.lookup name = some value) : value.WellFormed :=
  wellFormed.all _ (mem_of_lookup found)

/-! ## Building -/

theorem wellFormed_nil : WellFormed [] := ⟨List.nodup_nil, by simp⟩

theorem WellFormed.insert (wellFormed : entries.WellFormed) (free : entries.lookup name = none)
    (isValue : value.WellFormed) : (insert entries name value).WellFormed := by
  have absent := lookup_eq_none_iff.mp free
  constructor
  · rw [Entries.insert, List.map_append, List.map_singleton, List.nodup_append]
    refine ⟨wellFormed.distinct, by simp, ?_⟩
    rintro key member key' member' rfl
    rw [List.mem_singleton.mp member'] at member
    exact absent member
  · intro entry member
    rcases List.mem_append.mp member with old | new
    · exact wellFormed.all entry old
    · rw [List.mem_singleton.mp new]
      exact isValue

theorem WellFormed.replace (wellFormed : entries.WellFormed) (isValue : value.WellFormed) :
    (replace entries name value).WellFormed := by
  have sameNames : (Entries.replace entries name value).map Prod.fst = entries.map Prod.fst := by
    rw [Entries.replace, List.map_map]
    refine List.map_congr_left ?_
    intro entry _
    by_cases named : entry.1 = name
    · simp [named]
    · simp [named]
  constructor
  · rw [sameNames]
    exact wellFormed.distinct
  · intro entry member
    obtain ⟨old, oldMember, rfl⟩ := List.mem_map.mp member
    split
    · exact isValue
    · exact wellFormed.all old oldMember

/-- What keeps a table well formed can be done to any table of a tree. -/
theorem WellFormed.alter {route : Route} {change : Origin → Entries → Option Entries}
    (keeps : ∀ {origin entries result}, Entries.WellFormed entries →
      change origin entries = some result → Entries.WellFormed result)
    {path : List String} {origin : Origin} (wellFormed : entries.WellFormed)
    (altered : alter route change path origin entries = some result) : result.WellFormed := by
  induction path generalizing origin entries result with
  | nil => exact keeps wellFormed altered
  | cons name path hypothesis =>
      rw [Entries.alter] at altered
      split at altered
      · next free =>
          obtain ⟨inner, made, same⟩ := Option.bind_eq_some_iff.mp altered
          cases same
          exact wellFormed.insert free
            (Value.wellFormed_table_iff.mpr (hypothesis wellFormed_nil made))
      · next origin' inner found =>
          split at altered
          · obtain ⟨inner', made, same⟩ := Option.bind_eq_some_iff.mp altered
            cases same
            have isInner := Value.wellFormed_table_iff.mp (wellFormed.of_lookup found)
            exact wellFormed.replace (Value.wellFormed_table_iff.mpr (hypothesis isInner made))
          · cases altered
      · next elements found =>
          split at altered
          · next origin' inner last =>
              obtain ⟨inner', made, same⟩ := Option.bind_eq_some_iff.mp altered
              cases same
              have isArray := Value.wellFormed_array_iff.mp (wellFormed.of_lookup found)
              have isInner := Value.wellFormed_table_iff.mp (isArray _ (List.mem_of_getLast? last))
              refine wellFormed.replace (Value.wellFormed_array_iff.mpr ?_)
              intro element member
              rcases List.mem_append.mp member with old | new
              · exact isArray element (List.dropLast_subset _ old)
              · rw [List.mem_singleton.mp new]
                exact Value.wellFormed_table_iff.mpr (hypothesis isInner made)
          · cases altered
      · cases altered

theorem WellFormed.foldlM {Step : Type} {step : Entries → Step → Option Entries} {steps : List Step}
    (keeps : ∀ each ∈ steps, ∀ {entries result}, Entries.WellFormed entries →
      step entries each = some result → Entries.WellFormed result)
    (wellFormed : entries.WellFormed) (folded : steps.foldlM step entries = some result) :
    result.WellFormed := by
  induction steps generalizing entries with
  | nil =>
      cases folded
      exact wellFormed
  | cons first others hypothesis =>
      rw [List.foldlM_cons] at folded
      obtain ⟨middle, stepped, rest⟩ := Option.bind_eq_some_iff.mp folded
      have isMiddle := keeps first List.mem_cons_self wellFormed stepped
      exact hypothesis (fun each member => keeps each (.tail _ member)) isMiddle rest

theorem WellFormed.assign {assignment : Assignment} (wellFormed : entries.WellFormed)
    (isValue : assignment.value.WellFormed) (assigned : assign entries assignment = some result) :
    result.WellFormed := by
  refine wellFormed.alter ?_ assigned
  intro origin inner changed isInner change
  rw [assignIn] at change
  split at change
  · cases change
  · split at change
    · cases change
    · next taken =>
        cases change
        exact isInner.insert (Option.not_isSome_iff_eq_none.mp taken) isValue

theorem WellFormed.assignAll {assignments : List Assignment} (wellFormed : entries.WellFormed)
    (values : ∀ assignment ∈ assignments, assignment.value.WellFormed)
    (assigned : assignAll entries assignments = some result) : result.WellFormed := by
  refine wellFormed.foldlM ?_ assigned
  intro assignment member before after isBefore
  exact isBefore.assign (values assignment member)

end Entries
end SignedSession.Toml
