import SignedSession.Proofs.Lines
import SignedSession.Proofs.Meaning
import SignedSession.Proofs.Settings

/-!
# Writing a configuration and reading it back

A configuration is written as a document of three lines, if both of its periods have a place among the
integers of a document.  The document is read back as the same configuration, whatever its periods are,
so the policy that it gives is the same as well.
-/

set_option autoImplicit false

namespace SignedSession.Config

/-! ## The document -/

theorem fitsInt64_natCast {number : Nat} :
    Toml.Scalar.FitsInt64 number ↔ number ≤ 9223372036854775807 := by
  unfold Toml.Scalar.FitsInt64
  omega

theorem toText?_eq_some_iff {config : Config} {text : String} :
    config.toText? = some text ↔
      (config.validPeriod.toNat ≤ 9223372036854775807 ∧
        config.renewalWindow.toNat ≤ 9223372036854775807) ∧
      text = "[session]\nvalid_period_secs = " ++ toString config.validPeriod.toNat ++
        "\nregen_before_secs = " ++ toString config.renewalWindow.toNat ++ "\n" := by
  have lines : "[session]\n" ++ settingLine .validPeriod config.validPeriod ++
      settingLine .renewalWindow config.renewalWindow =
      "[session]\nvalid_period_secs = " ++ toString config.validPeriod.toNat ++
        "\nregen_before_secs = " ++ toString config.renewalWindow.toNat ++ "\n" := by
    apply String.toList_inj.mp
    simp [settingLine, Setting.key]
  rw [toText?, lines, Option.ite_none_right_eq_some, fitsInt64_natCast, fitsInt64_natCast,
    Option.some.injEq, eq_comm]

theorem toList_of_toText? {config : Config} {text : String} (written : config.toText? = some text) :
    text.toList = '[' :: ("session".toList ++ ']' :: '\n' ::
      ("valid_period_secs".toList ++ ' ' :: '=' :: ' ' ::
        (Nat.toDigits 10 config.validPeriod.toNat ++ '\n' ::
          ("regen_before_secs".toList ++ ' ' :: '=' :: ' ' ::
            (Nat.toDigits 10 config.renewalWindow.toNat ++ ['\n']))))) := by
  obtain ⟨-, rfl⟩ := toText?_eq_some_iff.mp written
  simp [Nat.toList_repr]

/-- The tree that a configuration is written as. -/
def document (config : Config) : Toml.Entries :=
  [("session", .table .header
    [(Setting.validPeriod.key, .integer config.validPeriod.toNat),
      (Setting.renewalWindow.key, .integer config.renewalWindow.toNat)])]

theorem ofEntries_document (config : Config) : ofEntries config.document = some config := by
  change (do
    let validPeriod ← periodOf _ (some (.integer config.validPeriod.toNat))
    let renewalWindow ← periodOf _ (some (.integer config.renewalWindow.toNat))
    some (⟨validPeriod, renewalWindow⟩ : Config)) = some config
  rw [periodOf_toNat, periodOf_toNat]
  rfl

theorem parse?_of_toText? {config : Config} {text : String} (written : config.toText? = some text) :
    Toml.parse? text = some config.document := by
  have chars := toList_of_toText? written
  have noMark : Toml.skipByteOrderMark text.toList = text.toList := by
    rw [chars]
    rfl
  obtain ⟨⟨validFits, windowFits⟩, -⟩ := toText?_eq_some_iff.mp written
  obtain ⟨fuel, enough⟩ : ∃ fuel, text.toList.length + 1 = fuel + 4 := by
    refine ⟨text.toList.length - 3, ?_⟩
    rw [chars]
    simp
  rw [Toml.parse?, noMark, enough, chars, Toml.statements_header (by decide),
    Toml.statements_assign (by decide) (fitsInt64_natCast.mpr validFits),
    Toml.statements_assign (by decide) (fitsInt64_natCast.mpr windowFits), String.ofList_toList,
    String.ofList_toList, String.ofList_toList]
  rfl

theorem ofText_of_toText? {config : Config} {text : String} (written : config.toText? = some text) :
    ofText text = .ok config := by
  rw [ofText, parse?_of_toText? written, Option.bind_some, ofEntries_document]

/-! ## The round trip -/

theorem exists_toText?_iff {config : Config} :
    (∃ text, config.toText? = some text) ↔
      config.validPeriod.toNat ≤ 9223372036854775807 ∧
        config.renewalWindow.toNat ≤ 9223372036854775807 := by
  simp only [toText?_eq_some_iff, exists_and_left, exists_eq, and_true]

theorem exists_toText?_of_policy {config : Config} {policy : Policy}
    (made : config.policy = .ok policy) : ∃ text, config.toText? = some text := by
  obtain ⟨-, shorter, short⟩ := exists_policy_iff.mp ⟨policy, made⟩
  rw [exists_toText?_iff]
  omega

/-- Exactly the configurations whose periods are signed numbers of 64 bits can be written, among them all
that give a policy.  What is written is a table with both periods, and reading it gives the configuration
back, and so the same policy or the same refusal. -/
theorem read_written (config : Config) :
    ((∃ text, config.toText? = some text) ↔
      config.validPeriod.toNat ≤ 9223372036854775807 ∧
        config.renewalWindow.toNat ≤ 9223372036854775807) ∧
    (∀ text, config.toText? = some text →
      text = "[session]\nvalid_period_secs = " ++ toString config.validPeriod.toNat ++
        "\nregen_before_secs = " ++ toString config.renewalWindow.toNat ++ "\n" ∧
      ofText text = .ok config ∧ (ofText text >>= Config.policy) = config.policy) ∧
    ∀ policy, config.policy = .ok policy →
      ∃ text, config.toText? = some text ∧ ofText text = .ok config := by
  refine ⟨exists_toText?_iff, ?_, ?_⟩
  · intro text written
    have same := ofText_of_toText? written
    refine ⟨(toText?_eq_some_iff.mp written).2, same, ?_⟩
    rw [same, ok_bind]
  · intro policy made
    obtain ⟨text, written⟩ := exists_toText?_of_policy made
    exact ⟨text, written, ofText_of_toText? written⟩

/-- The longest periods that can be written make no policy, and those of a policy can be written. -/
theorem read_written_at_the_limits :
    (∃ text, (⟨9223372036854775807, 0⟩ : Config).toText? = some text ∧
      ofText text = .ok ⟨9223372036854775807, 0⟩) ∧
    (∃ text, (⟨9223372036854775, 1⟩ : Config).toText? = some text ∧
      ofText text = .ok ⟨9223372036854775, 1⟩) ∧
    ¬ ∃ text, (⟨9223372036854775808, 1⟩ : Config).toText? = some text := by
  obtain ⟨writable, written, -⟩ := read_written ⟨9223372036854775807, 0⟩
  obtain ⟨-, -, ofPolicy⟩ := read_written ⟨9223372036854775, 1⟩
  obtain ⟨tooLong, -, -⟩ := read_written ⟨9223372036854775808, 1⟩
  obtain ⟨text, isText⟩ := writable.mpr (by decide)
  have longest : ∃ policy, (⟨9223372036854775, 1⟩ : Config).policy = .ok policy :=
    exists_policy_iff.mpr (by decide)
  obtain ⟨policy, made⟩ := longest
  exact ⟨⟨text, isText, (written text isText).2.1⟩, ofPolicy policy made, tooLong.not.mpr (by decide)⟩

end SignedSession.Config
