import SignedSession.Config
import SignedSession.Proofs.Trees

/-!
# What a document says

A document says something about a configuration at one place only, the entry `session`, and of that only
the places of the two periods count.  `Describes` and `Misdescribes` say by membership what stands at these
places, so that neither the order of entries nor anything else in the document has a part in it.
-/

set_option autoImplicit false

namespace SignedSession

/-! ## The places of the periods -/

namespace Toml.Value

/-- Whether a value can stand for a session: a table, an array, or a date or time. -/
def HoldsPeriods : Value → Prop
  | .table _ _ | .array _ _ | .dateTime _ => True
  | _ => False

/-- Whether a value stands in a session at the place of a period: in a table under the name of the
setting, in an array first or second.  A date or time has no such places. -/
def HasAt : Value → Setting → Value → Prop
  | .table _ entries, .validPeriod, value => ("valid_period_secs", value) ∈ entries
  | .table _ entries, .renewalWindow, value => ("regen_before_secs", value) ∈ entries
  | .array _ elements, .validPeriod, value => elements[0]? = some value
  | .array _ elements, .renewalWindow, value => elements[1]? = some value
  | _, _, _ => False

def IsPeriod (value : Value) : Prop := ∃ number : Int, 0 ≤ number ∧ value = .integer number

/-- What a session has at the place of a period, looked up. -/
def at? : Value → Setting → Option Value
  | .table _ entries, setting => entries.lookup setting.key
  | .array _ elements, .validPeriod => elements[0]?
  | .array _ elements, .renewalWindow => elements[1]?
  | _, _ => none

theorem at?_eq_some_iff {session value : Value} (wellFormed : session.WellFormed) {setting : Setting} :
    session.at? setting = some value ↔ session.HasAt setting value := by
  cases session with
  | table origin entries =>
      have isTable := wellFormed_table_iff.mp wellFormed
      cases setting with
      | validPeriod => exact isTable.lookup_eq_some_iff
      | renewalWindow => exact isTable.lookup_eq_some_iff
  | array origin elements => cases setting <;> rfl
  | _ => simp [at?, HasAt]

theorem WellFormed.of_at? {session value : Value} (wellFormed : session.WellFormed) {setting : Setting}
    (found : session.at? setting = some value) : value.WellFormed := by
  cases session with
  | table origin entries => exact (wellFormed_table_iff.mp wellFormed).of_lookup found
  | array origin elements =>
      cases setting <;> exact wellFormed_array_iff.mp wellFormed _ (List.mem_of_getElem? found)
  | _ => cases found

end Toml.Value

namespace Config

/-! ## Periods -/

/-- Whether the place of a period gives a number: the integer that stands there, or the standard where
nothing does. -/
inductive Gives (place : Toml.Value → Prop) (standard : UInt64) : UInt64 → Prop
  | integer {number : UInt64} (held : place (.integer number.toNat)) : Gives place standard number
  | absent (empty : ∀ value, ¬ place value) : Gives place standard standard

theorem periodOf_toNat (standard number : UInt64) :
    periodOf standard (some (.integer number.toNat)) = some number := by
  rw [periodOf, if_pos (Int.natCast_nonneg _), Int.toNat_natCast, UInt64.ofNat_toNat]

theorem periodOf_eq_none_iff {standard : UInt64} {value : Toml.Value} :
    periodOf standard (some value) = none ↔ ¬ value.IsPeriod := by
  cases value with
  | integer number =>
      rw [periodOf, Toml.Value.IsPeriod]
      split
      · next natural =>
          refine iff_of_false (by simp) ?_
          exact fun isNone => isNone ⟨number, natural, rfl⟩
      · next negative =>
          refine iff_of_true rfl ?_
          rintro ⟨number', natural, same⟩
          cases same
          exact negative natural
  | _ => simp [periodOf, Toml.Value.IsPeriod]

/-- Integers of a document fit 64 signed bits, so a period keeps its value as an unsigned number. -/
theorem eq_integer_of_periodOf {standard number : UInt64} {value : Toml.Value}
    (wellFormed : value.WellFormed) (read : periodOf standard (some value) = some number) :
    value = .integer number.toNat := by
  cases value with
  | integer value =>
      have fits := Toml.Value.wellFormed_integer_iff.mp wellFormed
      rw [periodOf] at read
      split at read
      · next natural =>
          cases read
          have small : value.toNat < 2 ^ 64 := by
            have upper := fits.2
            omega
          rw [UInt64.toNat_ofNat_of_lt' small, Int.toNat_of_nonneg natural]
      · cases read
  | _ => cases read

variable {session : Toml.Value} {setting : Setting} {standard number : UInt64}

theorem periodOf_at?_eq_some_iff (wellFormed : session.WellFormed) :
    periodOf standard (session.at? setting) = some number ↔
      Gives (session.HasAt setting) standard number := by
  cases found : session.at? setting with
  | none =>
      have empty : ∀ value, ¬ session.HasAt setting value := by
        intro value held
        rw [← Toml.Value.at?_eq_some_iff wellFormed, found] at held
        cases held
      constructor
      · intro read
        cases read
        exact .absent empty
      · rintro (held | _)
        · exact absurd held (empty _)
        · rfl
  | some value =>
      have held := (Toml.Value.at?_eq_some_iff wellFormed).mp found
      constructor
      · intro read
        have same := eq_integer_of_periodOf (wellFormed.of_at? found) read
        exact .integer (same ▸ held)
      · rintro (held' | empty)
        · rw [← Toml.Value.at?_eq_some_iff wellFormed, found] at held'
          cases held'
          exact periodOf_toNat standard number
        · exact absurd held (empty value)

theorem periodOf_at?_eq_none_iff (wellFormed : session.WellFormed) :
    periodOf standard (session.at? setting) = none ↔
      ∃ value, session.HasAt setting value ∧ ¬ value.IsPeriod := by
  simp only [← Toml.Value.at?_eq_some_iff wellFormed]
  cases session.at? setting with
  | none => simp [periodOf]
  | some value => simp [periodOf_eq_none_iff]

/-! ## Sessions -/

theorem ofSession_eq (holds : session.HoldsPeriods) :
    ofSession session = (do
      let validPeriod ← periodOf 1209600 (session.at? .validPeriod)
      let renewalWindow ← periodOf 604800 (session.at? .renewalWindow)
      return { validPeriod, renewalWindow }) := by
  cases session with
  | table origin entries => rfl
  | array origin elements => rfl
  | dateTime literal => rfl
  | _ => cases holds

theorem ofSession_of_not_holdsPeriods (other : ¬ session.HoldsPeriods) : ofSession session = none := by
  cases session with
  | table origin entries => exact absurd trivial other
  | array origin elements => exact absurd trivial other
  | dateTime literal => exact absurd trivial other
  | _ => rfl

theorem ofSession_eq_some_iff (wellFormed : session.WellFormed) (holds : session.HoldsPeriods)
    {config : Config} :
    ofSession session = some config ↔
      Gives (session.HasAt .validPeriod) 1209600 config.validPeriod ∧
        Gives (session.HasAt .renewalWindow) 604800 config.renewalWindow := by
  rw [ofSession_eq holds, ← periodOf_at?_eq_some_iff wellFormed,
    ← periodOf_at?_eq_some_iff wellFormed]
  simp only [Option.bind_eq_bind, Option.bind_eq_some_iff]
  constructor
  · rintro ⟨validPeriod, valid, renewalWindow, window, same⟩
    cases same
    exact ⟨valid, window⟩
  · rintro ⟨valid, window⟩
    exact ⟨_, valid, _, window, rfl⟩

theorem ofSession_eq_none_iff (wellFormed : session.WellFormed) (holds : session.HoldsPeriods) :
    ofSession session = none ↔
      ∃ setting value, session.HasAt setting value ∧ ¬ value.IsPeriod := by
  rw [ofSession_eq holds]
  constructor
  · intro refused
    cases valid : periodOf 1209600 (session.at? .validPeriod) with
    | none => exact ⟨_, (periodOf_at?_eq_none_iff wellFormed).mp valid⟩
    | some validPeriod =>
        cases window : periodOf 604800 (session.at? .renewalWindow) with
        | none => exact ⟨_, (periodOf_at?_eq_none_iff wellFormed).mp window⟩
        | some renewalWindow =>
            rw [valid, window] at refused
            cases refused
  · rintro ⟨setting, bad⟩
    cases setting with
    | validPeriod =>
        rw [(periodOf_at?_eq_none_iff wellFormed).mpr bad]
        rfl
    | renewalWindow =>
        rw [(periodOf_at?_eq_none_iff wellFormed).mpr bad]
        cases periodOf 1209600 (session.at? .validPeriod) <;> rfl

/-! ## Documents -/

/-- What a document says of a configuration.  Without a session both periods have their standard length,
and with one each has the length that its place gives. -/
inductive Describes (document : Toml.Entries) : Config → Prop
  | silent (absent : ∀ session, ("session", session) ∉ document) :
      Describes document ⟨1209600, 604800⟩
  | session {session : Toml.Value} {config : Config} (stands : ("session", session) ∈ document)
      (holds : session.HoldsPeriods)
      (validPeriod : Gives (session.HasAt .validPeriod) 1209600 config.validPeriod)
      (renewalWindow : Gives (session.HasAt .renewalWindow) 604800 config.renewalWindow) :
      Describes document config

/-- Whether a document has something else for a session, or something else than a period at the place of
one. -/
inductive Misdescribes (document : Toml.Entries) : Prop
  | otherSession {session : Toml.Value} (stands : ("session", session) ∈ document)
      (other : ¬ session.HoldsPeriods)
  | otherPeriod {session : Toml.Value} (stands : ("session", session) ∈ document)
      (holds : session.HoldsPeriods) {setting : Setting} {value : Toml.Value}
      (held : session.HasAt setting value) (other : ¬ value.IsPeriod)

/-- Whether two documents have the same session, or sessions with the same values at the places of the
periods. -/
inductive SameSession (document document' : Toml.Entries) : Prop
  | same (iff : ∀ session, ("session", session) ∈ document ↔ ("session", session) ∈ document')
  | places {session session' : Toml.Value} (stands : ("session", session) ∈ document)
      (stands' : ("session", session') ∈ document') (holds : session.HoldsPeriods)
      (holds' : session'.HoldsPeriods)
      (iff : ∀ setting value, session.HasAt setting value ↔ session'.HasAt setting value)

variable {document document' : Toml.Entries}

theorem absent_of_lookup_eq_none (found : document.lookup "session" = none) (session : Toml.Value) :
    ("session", session) ∉ document := by
  intro stands
  exact Toml.Entries.lookup_eq_none_iff.mp found (List.mem_map.mpr ⟨_, stands, rfl⟩)

theorem ofEntries_of_mem (wellFormed : document.WellFormed)
    (stands : ("session", session) ∈ document) : ofEntries document = ofSession session := by
  rw [ofEntries, wellFormed.lookup_eq_some_iff.mpr stands]

theorem ofEntries_of_absent (absent : ∀ session, ("session", session) ∉ document) :
    ofEntries document = some ⟨1209600, 604800⟩ := by
  have free : document.lookup "session" = none := by
    rw [Toml.Entries.lookup_eq_none_iff]
    intro member
    obtain ⟨⟨_, session⟩, stands, rfl⟩ := List.mem_map.mp member
    exact absent session stands
  rw [ofEntries, free, ← standard_eq]

theorem ofEntries_eq_some_iff (wellFormed : document.WellFormed) {config : Config} :
    ofEntries document = some config ↔ Describes document config := by
  constructor
  · intro read
    cases found : document.lookup "session" with
    | none =>
        rw [ofEntries_of_absent (absent_of_lookup_eq_none found)] at read
        cases read
        exact .silent (absent_of_lookup_eq_none found)
    | some session =>
        have stands := Toml.Entries.mem_of_lookup found
        rw [ofEntries_of_mem wellFormed stands] at read
        by_cases holds : session.HoldsPeriods
        · obtain ⟨valid, window⟩ :=
            (ofSession_eq_some_iff (wellFormed.of_lookup found) holds).mp read
          exact .session stands holds valid window
        · rw [ofSession_of_not_holdsPeriods holds] at read
          cases read
  · rintro (absent | ⟨stands, holds, valid, window⟩)
    · exact ofEntries_of_absent absent
    · rw [ofEntries_of_mem wellFormed stands]
      exact (ofSession_eq_some_iff (wellFormed.all _ stands) holds).mpr ⟨valid, window⟩

theorem ofEntries_eq_none_iff (wellFormed : document.WellFormed) :
    ofEntries document = none ↔ Misdescribes document := by
  constructor
  · intro refused
    cases found : document.lookup "session" with
    | none =>
        rw [ofEntries_of_absent (absent_of_lookup_eq_none found)] at refused
        cases refused
    | some session =>
        have stands := Toml.Entries.mem_of_lookup found
        rw [ofEntries_of_mem wellFormed stands] at refused
        by_cases holds : session.HoldsPeriods
        · obtain ⟨setting, value, held, other⟩ :=
            (ofSession_eq_none_iff (wellFormed.of_lookup found) holds).mp refused
          exact .otherPeriod stands holds held other
        · exact .otherSession stands holds
  · rintro (⟨stands, other⟩ | ⟨stands, holds, held, other⟩)
    · rw [ofEntries_of_mem wellFormed stands, ofSession_of_not_holdsPeriods other]
    · rw [ofEntries_of_mem wellFormed stands]
      exact (ofSession_eq_none_iff (wellFormed.all _ stands) holds).mpr ⟨_, _, held, other⟩

theorem ofEntries_congr (wellFormed : document.WellFormed) (wellFormed' : document'.WellFormed)
    (same : SameSession document document') : ofEntries document = ofEntries document' := by
  rcases same with iff | ⟨stands, stands', holds, holds', iff⟩
  · have lookups : document.lookup "session" = document'.lookup "session" := by
      apply Option.ext
      intro session
      rw [wellFormed.lookup_eq_some_iff, wellFormed'.lookup_eq_some_iff, iff]
    rw [ofEntries, ofEntries, lookups]
  · next session session' =>
      have found (setting : Setting) : session.at? setting = session'.at? setting := by
        apply Option.ext
        intro value
        rw [Toml.Value.at?_eq_some_iff (wellFormed.all _ stands),
          Toml.Value.at?_eq_some_iff (wellFormed'.all _ stands'), iff]
      rw [ofEntries_of_mem wellFormed stands, ofEntries_of_mem wellFormed' stands',
        ofSession_eq holds, ofSession_eq holds', found, found]

theorem ofText_of_parse? {text : String} (parsed : Toml.parse? text = some document) :
    ofText text = match ofEntries document with
      | some config => .ok config
      | none => .error .invalidDocument := by
  rw [ofText, parsed]
  rfl

/-- A text that is no document is refused.  A document is read by its session alone, and of that by what
stands at the places of the periods: both may be absent, each for itself, and else have to be integers that
are not negative. -/
theorem ofText_outcomes :
    (∀ text, Toml.parse? text = none → ofText text = .error .invalidDocument) ∧
    (∀ text document, Toml.parse? text = some document →
      document.WellFormed ∧
      (∀ config, ofText text = .ok config ↔ Describes document config) ∧
      ∀ error, ofText text = .error error ↔ error = .invalidDocument ∧ Misdescribes document) ∧
    ∀ text text' document document', Toml.parse? text = some document →
      Toml.parse? text' = some document' → SameSession document document' →
      ofText text = ofText text' := by
  refine ⟨?_, ?_, ?_⟩
  · intro text refused
    rw [ofText, refused]
    rfl
  · intro text document parsed
    have wellFormed := Toml.wellFormed_of_parse? parsed
    refine ⟨wellFormed, ?_, ?_⟩
    · intro config
      rw [ofText_of_parse? parsed, ← ofEntries_eq_some_iff wellFormed]
      cases ofEntries document <;> simp
    · intro error
      rw [ofText_of_parse? parsed, ← ofEntries_eq_none_iff wellFormed]
      cases ofEntries document <;> simp [eq_comm]
  · intro text text' document document' parsed parsed' same
    rw [ofText_of_parse? parsed, ofText_of_parse? parsed',
      ofEntries_congr (Toml.wellFormed_of_parse? parsed) (Toml.wellFormed_of_parse? parsed') same]

/-- A table with its entries in the other order and more besides, an array of the same periods in another
document, a date, a negative period, and no document at all. -/
theorem ofText_outcomes_of_five_texts :
    ofText "[session]\nregen_before_secs = 5\nextra = [1, 2]\nvalid_period_secs = 16\n" =
      .ok ⟨16, 5⟩ ∧
    ofText "session = [16, 5, 'x']\n[other]\n" =
      ofText "[session]\nregen_before_secs = 5\nextra = [1, 2]\nvalid_period_secs = 16\n" ∧
    ofText "session = 1979-05-27" = .ok ⟨1209600, 604800⟩ ∧
    ofText "session.valid_period_secs = -1" = .error .invalidDocument ∧
    ofText "session = " = .error .invalidDocument := by
  obtain ⟨noDocument, described, sameSession⟩ := ofText_outcomes
  have table : Toml.parse?
      "[session]\nregen_before_secs = 5\nextra = [1, 2]\nvalid_period_secs = 16\n" =
      some [("session", .table .header [("regen_before_secs", .integer 5),
        ("extra", .array .inline [.integer 1, .integer 2]), ("valid_period_secs", .integer 16)])] := rfl
  have array : Toml.parse? "session = [16, 5, 'x']\n[other]\n" =
      some [("session", .array .inline [.integer 16, .integer 5, .string "x"]),
        ("other", .table .header [])] := rfl
  have date : Toml.parse? "session = 1979-05-27" = some [("session", .dateTime "1979-05-27")] := rfl
  have negative : Toml.parse? "session.valid_period_secs = -1" =
      some [("session", .table .dotted [("valid_period_secs", .integer (-1))])] := rfl
  refine ⟨?_, ?_, ?_, ?_, noDocument _ rfl⟩
  · refine ((described _ _ table).2.1 _).mpr (.session (.head _) trivial ?_ ?_)
    · exact @Gives.integer _ _ 16 (by simp [Toml.Value.HasAt])
    · exact @Gives.integer _ _ 5 (by simp [Toml.Value.HasAt])
  · refine sameSession _ _ _ _ array table (.places (.head _) (.head _) trivial trivial ?_)
    intro setting value
    cases setting <;> simp [Toml.Value.HasAt, eq_comm]
  · refine ((described _ _ date).2.1 _).mpr (.session (.head _) trivial ?_ ?_)
    · exact .absent (fun _ => id)
    · exact .absent (fun _ => id)
  · have held : (Toml.Value.table .dotted [("valid_period_secs", .integer (-1))]).HasAt
        .validPeriod (.integer (-1)) := .head _
    refine ((described _ _ negative).2.2 _).mpr ⟨rfl, .otherPeriod (.head _) trivial held ?_⟩
    rintro ⟨number, natural, same⟩
    cases same
    cases natural

end Config
end SignedSession
