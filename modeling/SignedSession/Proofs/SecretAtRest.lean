import SignedSession.Proofs.Alphabet
import SignedSession.Proofs.SubKey
import SignedSession.Proofs.Trimming
import SignedSession.SecretKey

/-!
# A secret at rest

A text holds a secret exactly when it is the base64 text of that secret with blanks around it.  A
text that holds other bytes, fewer or more than a secret has, is refused for their number, and a text
that holds no bytes at all for its encoding.  The three cases exclude each other and leave no text
out, since base64 is canonical.
-/

set_option autoImplicit false

namespace SignedSession

/-! ## Base64 has no blanks -/

theorem Base64.isBlank_of_inAlphabet {c : Char} (inAlphabet : InAlphabet c) :
    Blank.isBlank c = false := by
  rw [inAlphabet_iff_toNat] at inAlphabet
  simp only [Blank.isBlank, Blank.ranges, List.any_cons, List.any_nil, Bool.or_false,
    Bool.or_eq_false_iff, Bool.and_eq_false_iff, decide_eq_false_iff_not]
  omega

theorem Base64.inAlphabet_or_of_mem_encode {bytes : List UInt8} {c : Char}
    (member : c ∈ (encode bytes).toList) : InAlphabet c ∨ c = '=' := by
  obtain ⟨symbols, written, all⟩ := exists_encode_eq_append bytes
  rw [written, String.toList_append, String.toList_ofList, List.mem_append] at member
  rcases member with inSymbols | inPadding
  · exact .inl (all c inSymbols)
  · exact .inr (List.eq_of_mem_replicate inPadding)

theorem Blank.trim_encode (bytes : List UInt8) : trim (Base64.encode bytes) = Base64.encode bytes := by
  have noBlank : ∀ c ∈ (Base64.encode bytes).toList, isBlank c = false := by
    intro c member
    rcases Base64.inAlphabet_or_of_mem_encode member with inAlphabet | rfl
    · exact Base64.isBlank_of_inAlphabet inAlphabet
    · decide
  apply trim_of_bareEnds
  constructor
  · intro c first
    exact noBlank c (List.mem_of_mem_head? first)
  · intro c last
    exact noBlank c (List.mem_of_getLast? last)

namespace SecretKey

/-! ## Bytes -/

theorem ofBytes_eq_ok_iff {bytes : List UInt8} {key : SecretKey} :
    ofBytes bytes = .ok key ↔ bytes = key.bytes.toList := by
  constructor
  · intro loaded
    rw [ofBytes] at loaded
    split at loaded
    · next exact found =>
        cases loaded
        exact Bytes.ofList?_eq_some_iff.mp found
    · cases loaded
  · rintro rfl
    rw [ofBytes, Bytes.ofList?_toList]

theorem ofBytes_of_length_ne {bytes : List UInt8} (length : bytes.length ≠ 32) :
    ofBytes bytes = .error (.secretLength 32 bytes.length) := by
  rw [ofBytes, Bytes.ofList?_eq_none_iff.mpr length]

theorem ofBytes_of_length {bytes : List UInt8} (length : bytes.length = 32) :
    ofBytes bytes = .ok ⟨⟨bytes, length⟩⟩ :=
  ofBytes_eq_ok_iff.mpr rfl

theorem ofBytes_eq_error_iff {bytes : List UInt8} {error : Error} :
    ofBytes bytes = .error error ↔ bytes.length ≠ 32 ∧ error = .secretLength 32 bytes.length := by
  by_cases length : bytes.length = 32
  · simp [ofBytes_of_length length, length]
  · simp [ofBytes_of_length_ne length, length, eq_comm]

/-! ## Texts -/

/-- A text holds bytes, whose number then decides, or it holds none. -/
theorem held_or_foreign (text : String) :
    (∃ bytes, Blank.trim text = Base64.encode bytes ∧ ofBase64 text = ofBytes bytes) ∨
      (∀ bytes, Blank.trim text ≠ Base64.encode bytes) ∧
        ∃ fault, ofBase64 text = .error (.secretEncoding fault) := by
  cases read : Base64.decode (Blank.trim text) with
  | ok bytes =>
      refine .inl ⟨bytes, Base64.decode_eq_ok_iff.mp read, ?_⟩
      rw [ofBase64, read]
  | error fault =>
      refine .inr ⟨?_, fault, ?_⟩
      · intro bytes core
        rw [core, Base64.decode_encode] at read
        cases read
      · rw [ofBase64, read]

theorem ofBase64_eq_ok_iff {text : String} {key : SecretKey} :
    ofBase64 text = .ok key ↔ Blank.trim text = key.toBase64 := by
  rcases held_or_foreign text with ⟨bytes, core, held⟩ | ⟨foreign, fault, refused⟩
  · rw [held, ofBytes_eq_ok_iff, core, toBase64]
    constructor
    · rintro rfl
      rfl
    · exact Base64.encode_injective
  · rw [refused]
    refine iff_of_false ?_ (foreign _)
    intro same
    cases same

theorem ofBase64_eq_secretLength_iff {text : String} {expected actual : Nat} :
    ofBase64 text = .error (.secretLength expected actual) ↔
      expected = 32 ∧ actual ≠ 32 ∧
        ∃ bytes, bytes.length = actual ∧ Blank.trim text = Base64.encode bytes := by
  rcases held_or_foreign text with ⟨bytes, core, held⟩ | ⟨foreign, fault, refused⟩
  · rw [held, ofBytes_eq_error_iff, core]
    constructor
    · rintro ⟨length, same⟩
      cases same
      exact ⟨rfl, length, bytes, rfl, rfl⟩
    · rintro ⟨rfl, length, bytes', rfl, same⟩
      cases Base64.encode_injective same
      exact ⟨length, rfl⟩
  · rw [refused]
    constructor
    · intro same
      cases same
    · rintro ⟨-, -, bytes, -, core⟩
      exact absurd core (foreign bytes)

theorem exists_ofBase64_eq_secretEncoding_iff {text : String} :
    (∃ fault, ofBase64 text = .error (.secretEncoding fault)) ↔
      ∀ bytes, Blank.trim text ≠ Base64.encode bytes := by
  rcases held_or_foreign text with ⟨bytes, core, held⟩ | ⟨foreign, refused⟩
  · rw [held]
    refine iff_of_false ?_ (fun foreign => foreign bytes core)
    rintro ⟨fault, refused⟩
    cases (ofBytes_eq_error_iff.mp refused).2
  · exact iff_of_true refused foreign

theorem error_of_ofBase64 {text : String} {error : Error} (refused : ofBase64 text = .error error) :
    (∃ actual, error = .secretLength 32 actual) ∨ ∃ fault, error = .secretEncoding fault := by
  rcases held_or_foreign text with ⟨bytes, -, held⟩ | ⟨-, fault, found⟩
  · rw [held] at refused
    exact .inl ⟨_, (ofBytes_eq_error_iff.mp refused).2⟩
  · rw [found] at refused
    cases refused
    exact .inr ⟨fault, rfl⟩

theorem ofBase64_toBase64 (key : SecretKey) : ofBase64 key.toBase64 = .ok key :=
  ofBase64_eq_ok_iff.mpr (Blank.trim_encode _)

theorem ofBase64_append {before after : String} (beforeBlank : Blank.AllBlank before.toList)
    (afterBlank : Blank.AllBlank after.toList) (text : String) :
    ofBase64 (before ++ text ++ after) = ofBase64 text := by
  rw [ofBase64, ofBase64, Blank.trim_append beforeBlank afterBlank]

/-- Which texts hold a secret, and why any other is refused.  The text that a secret is kept as loads
it, no other does but for blanks around it, and blanks around any text change nothing. -/
theorem text_at_rest :
    (∀ text core, Blank.trim text = core ↔ Blank.IsCore core text) ∧
    (∀ text key, ofBase64 text = .ok key ↔ Blank.trim text = key.toBase64) ∧
    (∀ text expected actual, ofBase64 text = .error (.secretLength expected actual) ↔
      expected = 32 ∧ actual ≠ 32 ∧
        ∃ bytes, bytes.length = actual ∧ Blank.trim text = Base64.encode bytes) ∧
    (∀ text, (∃ fault, ofBase64 text = .error (.secretEncoding fault)) ↔
      ∀ bytes, Blank.trim text ≠ Base64.encode bytes) ∧
    (∀ text error, ofBase64 text = .error error →
      (∃ actual, error = .secretLength 32 actual) ∨ ∃ fault, error = .secretEncoding fault) ∧
    (∀ key : SecretKey, ofBase64 key.toBase64 = .ok key) ∧
    (∀ text text' key, ofBase64 text = .ok key → ofBase64 text' = .ok key →
      Blank.trim text = Blank.trim text') ∧
    ∀ before text after, Blank.AllBlank before.toList → Blank.AllBlank after.toList →
      ofBase64 (before ++ text ++ after) = ofBase64 text := by
  refine ⟨fun _ _ => Blank.trim_eq_iff, fun _ _ => ofBase64_eq_ok_iff,
    fun _ _ _ => ofBase64_eq_secretLength_iff, fun _ => exists_ofBase64_eq_secretEncoding_iff,
    fun _ _ => error_of_ofBase64, ofBase64_toBase64, ?_, ?_⟩
  · intro text text' key loaded loaded'
    rw [ofBase64_eq_ok_iff.mp loaded, ofBase64_eq_ok_iff.mp loaded']
  · intro before text after beforeBlank afterBlank
    exact ofBase64_append beforeBlank afterBlank text

/-- A text with a no-break space before it and a line end after it loads its secret.  A text of 33
bytes is refused for their number, and two symbols without their padding for their encoding. -/
theorem text_at_rest_between_blanks :
    ofBase64 ("\u00a0" ++ (uniform 90).toBase64 ++ "\r\n") = .ok (uniform 90) ∧
    ofBase64 (Base64.encode (List.replicate 33 90)) = .error (.secretLength 32 33) ∧
    ∃ fault, ofBase64 "AA" = .error (.secretEncoding fault) := by
  obtain ⟨-, -, length, encoding, -, atRest, -, between⟩ := text_at_rest
  refine ⟨?_, ?_, ?_⟩
  · rw [between _ _ _ (by decide) (by decide), atRest]
  · exact (length _ _ _).mpr ⟨rfl, by decide, _, List.length_replicate, Blank.trim_encode _⟩
  · refine (encoding _).mpr ?_
    intro bytes core
    have size := congrArg String.length core
    have two : (Blank.trim "AA").length = 2 := by decide
    rw [two, Base64.length_encode] at size
    omega

end SecretKey
end SignedSession
