import SignedSession.Config
import SignedSession.Proofs.WellFormedUtf8

/-!
# Configurations in files

A file is read as the text that its bytes encode, and nothing else about it matters.  Bytes that encode no
text are refused before any of them is looked at as a document, wherever the flaw is.
-/

set_option autoImplicit false

namespace SignedSession.Config

theorem ofFile_encode (text : String) : ofFile (.ok (Utf8.encode text)) = ofText text := by
  simp only [ofFile, Utf8.decode?_encode]

theorem ofFile_of_ne_encode {bytes : List UInt8} (foreign : ∀ text, bytes ≠ Utf8.encode text) :
    ofFile (.ok bytes) = .error (.unreadableFile .notUtf8) := by
  have undecoded : Utf8.decode? bytes = none := by
    rw [Option.eq_none_iff_forall_ne_some]
    intro text decoded
    exact foreign text (Utf8.decode?_eq_some_iff.mp decoded)
  simp only [ofFile, undecoded]

/-- A file that holds a text gives the configuration of the text, and so the same policy.  Any other file
is unreadable: one whose bytes are not well formed, which is one that holds a text up to a flaw. -/
theorem ofFile_outcomes :
    (∀ text, ofFile (.ok (Utf8.encode text)) = ofText text ∧
      (ofFile (.ok (Utf8.encode text)) >>= policy) = (ofText text >>= policy)) ∧
    (∀ bytes, (∀ text, bytes ≠ Utf8.encode text) →
      ofFile (.ok bytes) = .error (.unreadableFile .notUtf8)) ∧
    (∀ bytes, Utf8.WellFormed bytes ↔ ∃ text, bytes = Utf8.encode text) ∧
    ∀ bytes, (∀ text, bytes ≠ Utf8.encode text) ↔
      ∃ before first rest, bytes = Utf8.encode before ++ first :: rest ∧ Utf8.Flaw first rest := by
  refine ⟨?_, fun _ => ofFile_of_ne_encode, fun _ => Utf8.wellFormed_iff, fun _ => Utf8.ne_encode_iff⟩
  intro text
  rw [ofFile_encode]
  exact ⟨rfl, rfl⟩

/-- A file that is a document up to the first half of a surrogate pair, and one with a letter of two bytes in
a comment. -/
theorem ofFile_outcomes_of_two_files :
    ofFile (.ok (Utf8.encode "[session]\n# " ++ [0xED, 0xA0, 0xBD, 0x0A])) =
      .error (.unreadableFile .notUtf8) ∧
    ofFile (.ok [0x23, 0xC3, 0xA9]) = ofText "#é" := by
  obtain ⟨texts, others, -, flaws⟩ := ofFile_outcomes
  constructor
  · apply others
    refine (flaws _).mpr ⟨_, _, _, rfl, .surrogate ⟨by decide, 0xA0, rfl, by decide⟩⟩
  · exact (texts "#é").1

end SignedSession.Config
