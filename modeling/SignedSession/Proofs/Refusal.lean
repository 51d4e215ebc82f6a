import SignedSession.Proofs.Veil

/-!
# What a refusal tells of a secret

The text of a secret that does not load is refused with a message, and messages are shown to people.
What they tell is the frame of the text and, in one case, a symbol of the secret: texts of one frame
that are refused for one kind of fault are refused in the same words, unless both are refused for their
last symbols and these differ.
-/

set_option autoImplicit false

namespace SignedSession
namespace Base64

/-! ## Messages -/

def DecodeError.SameVariant : DecodeError → DecodeError → Prop
  | .invalidByte _ _, .invalidByte _ _ => True
  | .invalidLength _, .invalidLength _ => True
  | .invalidLastSymbol _ _, .invalidLastSymbol _ _ => True
  | .invalidPadding, .invalidPadding => True
  | _, _ => False

theorem DecodeError.message_invalidLastSymbol (byte : UInt8) (offset : Nat) :
    (invalidLastSymbol byte offset).message =
      "Invalid last symbol " ++ byte.toNat.repr ++ ", offset " ++ toString offset ++ "." := rfl

theorem DecodeError.byte_eq_of_message {byte byte' : UInt8} {offset : Nat}
    (same : (invalidLastSymbol byte offset).message = (invalidLastSymbol byte' offset).message) :
    byte = byte' := by
  rw [message_invalidLastSymbol, message_invalidLastSymbol] at same
  have front := (String.append_left_inj _).mp ((String.append_left_inj _).mp
    ((String.append_left_inj _).mp same))
  have decimals := congrArg String.toList ((String.append_right_inj _).mp front)
  have numbers := congrArg (fun digits => Nat.ofDigitChars 10 digits 0) decimals
  simp only [Nat.toList_repr, Nat.ofDigitChars_ten_toDigits] at numbers
  exact UInt8.toNat_inj.mp numbers

end Base64

/-- Whether two refusals of a secret's text are for the same kind of fault. -/
def Error.SameKind : Error → Error → Prop
  | .secretLength _ _, .secretLength _ _ => True
  | .secretEncoding fault, .secretEncoding fault' => fault.SameVariant fault'
  | _, _ => False

namespace SecretKey

/-- Whether a text is refused for a symbol of its own, which the error names together with its place. -/
def RefusedForSymbol (text : String) (byte : UInt8) (offset : Nat) : Prop :=
  ofBase64 text = .error (.secretEncoding (.invalidLastSymbol byte offset)) ∧
    Base64.InAlphabet (Char.ofUInt8 byte) ∧ (Utf8.encode (Blank.trim text))[offset]? = some byte

theorem refusedForSymbol_of_split {text : String} {front : List UInt8} {byte : UInt8} {pads : Nat}
    (refused : Base64.decode (Blank.trim text) = .error (.invalidLastSymbol byte (0 + front.length)))
    (split : Utf8.encode (Blank.trim text) = front ++ byte :: List.replicate pads Base64.padding)
    (isSymbol : Base64.IsSymbol byte) : RefusedForSymbol text byte front.length := by
  rw [Nat.zero_add] at refused
  refine ⟨?_, Base64.inAlphabet_ofUInt8_iff.mpr isSymbol, ?_⟩
  · rw [ofBase64, refused]
  · rw [split]
    simp

/-- Two texts of one frame that are refused for one kind of fault are refused for the same fault, or
for symbols at the same place. -/
theorem refused_alike {text text' : String} {error error' : Error}
    (sameFrame : Base64.SameFrame text text') (refused : ofBase64 text = .error error)
    (refused' : ofBase64 text' = .error error') (sameKind : error.SameKind error') :
    error = error' ∨ ∃ byte byte' offset,
      RefusedForSymbol text byte offset ∧ RefusedForSymbol text' byte' offset := by
  have veiled : Base64.veil (Blank.trim text) = Base64.veil (Blank.trim text') := by
    rw [← Base64.trim_veil, ← Base64.trim_veil, Base64.veil_eq_of_sameFrame sameFrame]
  have alike := Base64.decode_veil (Blank.trim text)
  have alike' := Base64.decode_veil (Blank.trim text')
  have frames := congrArg Utf8.encode veiled
  rw [Base64.encode_veil, Base64.encode_veil] at frames
  rw [← veiled] at alike'
  rw [ofBase64] at refused refused'
  -- Under the veil the two are one text, so both results are compared with the same third one.
  generalize Base64.decode (Base64.veil (Blank.trim text)) = underVeil at alike alike'
  generalize read : Base64.decode (Blank.trim text) = result at alike refused
  generalize read' : Base64.decode (Blank.trim text') = result' at alike' refused'
  cases alike with
  | read length =>
      obtain ⟨-, rfl⟩ := ofBytes_eq_error_iff.mp refused
      cases alike' with
      | read length' =>
          obtain ⟨-, rfl⟩ := ofBytes_eq_error_iff.mp refused'
          rw [length, length']
          exact .inl rfl
      | lastSymbol front' pads' split' isSymbol' =>
          cases refused'
          cases sameKind
  | refused fault =>
      cases alike' with
      | refused fault =>
          cases refused
          cases refused'
          exact .inl rfl
  | lastSymbol front pads split isSymbol =>
      cases refused
      cases alike' with
      | read length' =>
          obtain ⟨-, rfl⟩ := ofBytes_eq_error_iff.mp refused'
          cases sameKind
      | lastSymbol front' pads' split' isSymbol' =>
          have forSymbol := refusedForSymbol_of_split read split isSymbol
          have forSymbol' := refusedForSymbol_of_split read' split' isSymbol'
          rw [split, split'] at frames
          rw [← Base64.length_front_eq isSymbol isSymbol' frames] at forSymbol'
          exact .inr ⟨_, _, _, forSymbol, forSymbol'⟩

/-- Two texts that differ in nothing but their symbols, and are refused for one kind of fault, are
refused in the same words exactly when it is not for two different symbols of their own. -/
theorem messages_agree_iff (text text' : String) (error error' : Error)
    (sameFrame : Base64.SameFrame text text') (refused : ofBase64 text = .error error)
    (refused' : ofBase64 text' = .error error') (sameKind : error.SameKind error') :
    error.message = error'.message ↔
      ¬ ∃ byte byte' offset, byte ≠ byte' ∧ RefusedForSymbol text byte offset ∧
        RefusedForSymbol text' byte' offset := by
  constructor
  · rintro same ⟨byte, byte', offset, different, ⟨forSymbol, -⟩, ⟨forSymbol', -⟩⟩
    cases refused.symm.trans forSymbol
    cases refused'.symm.trans forSymbol'
    have faults := (String.append_right_inj _).mp (Option.some.inj same)
    exact different (Base64.DecodeError.byte_eq_of_message faults)
  · intro untold
    rcases refused_alike sameFrame refused refused' sameKind with
      rfl | ⟨byte, byte', offset, forSymbol, forSymbol'⟩
    · rfl
    · have same : byte = byte' := by
        by_contra different
        exact untold ⟨byte, byte', offset, different, forSymbol, forSymbol'⟩
      subst same
      cases refused.symm.trans forSymbol.1
      cases refused'.symm.trans forSymbol'.1
      rfl

/-- Two texts of one frame that end in the same symbol.  Both are refused for it, in the same words. -/
theorem messages_agree_iff_one_last_symbol :
    Base64.SameFrame "\u2003AB==" "\u2003xB==" ∧
    ∃ error error', ofBase64 "\u2003AB==" = .error error ∧ ofBase64 "\u2003xB==" = .error error' ∧
      error.SameKind error' ∧ error.message = error'.message := by
  have sameFrame : Base64.SameFrame "\u2003AB==" "\u2003xB==" := by decide
  have refused : ofBase64 "\u2003AB==" = .error (.secretEncoding (.invalidLastSymbol 66 1)) := by
    decide
  have refused' : ofBase64 "\u2003xB==" = .error (.secretEncoding (.invalidLastSymbol 66 1)) := by
    decide
  have agree := messages_agree_iff _ _ _ _ sameFrame refused refused' trivial
  refine ⟨sameFrame, _, _, refused, refused', trivial, agree.mpr ?_⟩
  rintro ⟨byte, byte', offset, different, ⟨forSymbol, -⟩, ⟨forSymbol', -⟩⟩
  cases refused.symm.trans forSymbol
  cases refused'.symm.trans forSymbol'
  exact different rfl

/-- Two texts of a whole key whose last symbols have bits that no byte uses.  Both are refused for it,
and the messages tell the symbols. -/
theorem message_tells_last_symbol :
    Base64.SameFrame "3fs9f3dar0GQDOH+FptuWDB0WhPVTIVunYH7O5ZFm/C="
      "3fs9f3dar0GQDOH+FptuWDB0WhPVTIVunYH7O5ZFm/D=" ∧
    ofBase64 "3fs9f3dar0GQDOH+FptuWDB0WhPVTIVunYH7O5ZFm/C=" =
      .error (.secretEncoding (.invalidLastSymbol 67 42)) ∧
    ofBase64 "3fs9f3dar0GQDOH+FptuWDB0WhPVTIVunYH7O5ZFm/D=" =
      .error (.secretEncoding (.invalidLastSymbol 68 42)) ∧
    (Error.secretEncoding (.invalidLastSymbol 67 42)).SameKind
      (.secretEncoding (.invalidLastSymbol 68 42)) ∧
    (Error.secretEncoding (.invalidLastSymbol 67 42)).message ≠
      (Error.secretEncoding (.invalidLastSymbol 68 42)).message :=
  ⟨by decide, by decide, by decide, trivial, by decide⟩

end SecretKey
end SignedSession
