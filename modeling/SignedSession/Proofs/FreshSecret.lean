import SignedSession.Proofs.SecretAtRest
import SignedSession.Randomness

/-!
# Texts for fresh secrets

Bytes that were drawn, however many, become a text that holds them: whole groups of four symbols, of which
the last is completed with `=`.  The text loads as a secret exactly when the bytes are as many as a secret
has, and any other number is what it is refused for.
-/

set_option autoImplicit false

namespace SignedSession

variable {n : Nat}

namespace SecretKey

theorem ofBytes_toList (bytes : Bytes n) :
    ofBytes bytes.toList =
      if whole : n = 32 then .ok ⟨⟨bytes.toList, bytes.length_toList.trans whole⟩⟩
      else .error (.secretLength 32 n) := by
  split
  · next whole => exact ofBytes_of_length (bytes.length_toList.trans whole)
  · next other =>
      rw [ofBytes_of_length_ne (bytes.length_toList.trans_ne other), bytes.length_toList]

/-- Writing bytes and loading the text is loading the bytes. -/
theorem ofBase64_encode (bytes : List UInt8) : ofBase64 (Base64.encode bytes) = ofBytes bytes := by
  rw [ofBase64, Blank.trim_encode, Base64.decode_encode]

theorem ofBase64_encode_ne_secretEncoding (bytes : List UInt8) (fault : Base64.DecodeError) :
    ofBase64 (Base64.encode bytes) ≠ .error (.secretEncoding fault) := by
  intro refused
  rw [ofBase64_encode] at refused
  cases (ofBytes_eq_error_iff.mp refused).2

end SecretKey

namespace RandomDraw

theorem keyText_of_drawn (drawn : Bytes n) :
    keyText (.ok drawn) = .quiet (.ok (Base64.encode drawn.toList)) := rfl

/-- What is made of `n` bytes is a text of whole groups that holds them, with `=` where a last group has
fewer than three bytes and nowhere else.  It loads as a secret of just these bytes if they are 32, and
otherwise it is refused for their number. -/
theorem keyText_loads (drawn : Bytes n) :
    ∃ text : String, keyText (.ok drawn) = .quiet (.ok text) ∧
      text.length = 4 * ((n + 2) / 3) ∧
      (∃ symbols : String,
        text = symbols ++ String.ofList (List.replicate ((3 - n % 3) % 3) '=') ∧
        '=' ∉ symbols.toList) ∧
      Base64.decode text = .ok drawn.toList ∧
      SecretKey.ofBase64 text =
        (if whole : n = 32 then .ok ⟨⟨drawn.toList, drawn.length_toList.trans whole⟩⟩
        else .error (.secretLength 32 n)) ∧
      ∀ fault, SecretKey.ofBase64 text ≠ .error (.secretEncoding fault) := by
  have length := drawn.length_toList
  refine ⟨_, keyText_of_drawn drawn, ?_, ?_, Base64.decode_encode _, ?_,
    SecretKey.ofBase64_encode_ne_secretEncoding _⟩
  · rw [Base64.length_encode, length]
  · obtain ⟨symbols, written, all⟩ := Base64.exists_encode_eq_append drawn.toList
    rw [length] at written
    refine ⟨symbols, written, ?_⟩
    intro member
    exact absurd (all '=' member) (by decide)
  · rw [SecretKey.ofBase64_encode, SecretKey.ofBytes_toList]

end RandomDraw
end SignedSession
