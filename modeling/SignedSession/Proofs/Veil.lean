import SignedSession.Proofs.SecretAtRest
import Mathlib.Data.List.Forall2

/-!
# Base64 under a veil

What a text holds is in its symbols; the rest of it, the blanks, the padding and whatever is foreign to
base64, is its frame.  The veil makes all symbols alike and leaves the frame.  A text is read as it is
under the veil, with one exception: a last symbol with bits that no byte uses is refused, and under the
veil there are no such bits.
-/

set_option autoImplicit false

namespace SignedSession.Base64

/-! ## The veil -/

/-- A byte without the six bits that it stands for, if it is a symbol. -/
def veilByte (byte : UInt8) : UInt8 :=
  match value? byte with
  | some _ => symbol 0
  | none => byte

def veilChar (c : Char) : Char := if InAlphabet c then 'A' else c

/-- A text with every symbol replaced by the first of the alphabet. -/
def veil (text : String) : String := String.ofList (text.toList.map veilChar)

theorem veilByte_of_value?_eq_none {byte : UInt8} (foreign : value? byte = none) :
    veilByte byte = byte := by
  rw [veilByte, foreign]

theorem veilByte_of_isSymbol {byte : UInt8} (isSymbol : IsSymbol byte) :
    veilByte byte = symbol 0 := by
  obtain ⟨value, read⟩ := isSymbol
  rw [veilByte, read]

theorem value?_veilByte (byte : UInt8) : value? (veilByte byte) = (value? byte).map fun _ => 0 := by
  cases read : value? byte with
  | none => rw [veilByte_of_value?_eq_none read, read, Option.map_none]
  | some value => rw [veilByte_of_isSymbol ⟨value, read⟩, value?_symbol (by decide), Option.map_some]

theorem valueAt_veilByte (offset : Nat) (byte : UInt8) :
    valueAt offset (veilByte byte) = (valueAt offset byte).map fun _ => 0 := by
  rw [valueAt, valueAt, value?_veilByte]
  cases read : value? byte with
  | none => rw [veilByte_of_value?_eq_none read]; rfl
  | some value => rfl

theorem veilByte_eq_padding_iff {byte : UInt8} : veilByte byte = padding ↔ byte = padding := by
  cases read : value? byte with
  | none => rw [veilByte_of_value?_eq_none read]
  | some value =>
      rw [veilByte_of_isSymbol ⟨value, read⟩]
      refine iff_of_false (symbol_ne_padding (by decide)) ?_
      rintro rfl
      cases read

/-! ## Reading under the veil -/

/-- How a text and the same text under the veil are read, from an offset on. -/
inductive ReadAlike (offset : Nat) (symbols : List UInt8) :
    Except DecodeError (List UInt8) → Except DecodeError (List UInt8) → Prop
  | read {bytes zeros : List UInt8} (length : bytes.length = zeros.length) :
      ReadAlike offset symbols (.ok bytes) (.ok zeros)
  | refused (fault : DecodeError) : ReadAlike offset symbols (.error fault) (.error fault)
  /-- The last symbol has bits that no byte uses.  Under the veil it has none. -/
  | lastSymbol (front : List UInt8) (pads : Nat) {zeros : List UInt8} {byte : UInt8}
      (split : symbols = front ++ byte :: List.replicate pads padding)
      (isSymbol : IsSymbol byte) :
      ReadAlike offset symbols (.error (.invalidLastSymbol byte (offset + front.length)))
        (.ok zeros)

theorem ReadAlike.valueAt_bind {offset place : Nat} {symbols : List UInt8} {byte : UInt8}
    {next veiledNext : Nat → Except DecodeError (List UInt8)}
    (alike : ∀ value, valueAt place byte = .ok value →
      ReadAlike offset symbols (next value) (veiledNext 0)) :
    ReadAlike offset symbols (valueAt place byte >>= next)
      (valueAt place (veilByte byte) >>= veiledNext) := by
  rw [valueAt_veilByte]
  cases read : valueAt place byte with
  | error fault => exact .refused fault
  | ok value => exact alike value read

/-- A whole group of three bytes that the veil leaves. -/
def veiledGroup : List UInt8 := [firstByte 0 0, secondByte 0 0, thirdByte 0 0]

theorem decodeGroup_veil (offset : Nat) (a b c d : UInt8) :
    decodeGroup offset (veilByte a) (veilByte b) (veilByte c) (veilByte d) =
      (decodeGroup offset a b c d).map fun _ => veiledGroup := by
  simp only [decodeGroup, valueAt_veilByte]
  cases valueAt offset a with
  | error fault => rfl
  | ok w =>
      cases valueAt (offset + 1) b with
      | error fault => rfl
      | ok x =>
          cases valueAt (offset + 2) c with
          | error fault => rfl
          | ok y =>
              cases valueAt (offset + 3) d with
              | error fault => rfl
              | ok z => rfl

theorem length_of_decodeGroup {offset : Nat} {a b c d : UInt8} {group : List UInt8}
    (read : decodeGroup offset a b c d = .ok group) : group.length = 3 := by
  simp only [decodeGroup, bind_eq_ok_iff] at read
  obtain ⟨_, -, _, -, _, -, _, -, result⟩ := read
  cases result
  rfl

theorem isSymbol_of_valueAt {offset value : Nat} {byte : UInt8}
    (read : valueAt offset byte = .ok value) : IsSymbol byte := by
  obtain ⟨small, rfl⟩ := eq_symbol_of_valueAt read
  exact isSymbol_symbol small

theorem decodeLastGroup_veil (offset : Nat) (a b c d : UInt8) :
    ReadAlike offset [a, b, c, d] (decodeLastGroup offset a b c d)
      (decodeLastGroup offset (veilByte a) (veilByte b) (veilByte c) (veilByte d)) := by
  rw [decodeLastGroup, decodeLastGroup]
  apply ReadAlike.valueAt_bind
  intro w first
  apply ReadAlike.valueAt_bind
  intro x second
  simp only [veilByte_eq_padding_iff, ne_eq]
  by_cases thirdPadding : c = padding
  · rw [if_pos thirdPadding, if_pos thirdPadding]
    by_cases fourthPadding : d = padding
    · subst thirdPadding fourthPadding
      by_cases unused : x % 16 = 0
      · simp only [unused]
        exact .read rfl
      · simp only [unused]
        exact .lastSymbol [a] 2 rfl (isSymbol_of_valueAt second)
    · simp only [fourthPadding]
      exact .refused _
  · rw [if_neg thirdPadding, if_neg thirdPadding]
    apply ReadAlike.valueAt_bind
    intro y third
    by_cases fourthPadding : d = padding
    · subst fourthPadding
      by_cases unused : y % 4 = 0
      · simp only [unused]
        exact .read rfl
      · simp only [unused]
        exact .lastSymbol [a, b] 1 rfl (isSymbol_of_valueAt third)
    · simp only [fourthPadding]
      apply ReadAlike.valueAt_bind
      intro z fourth
      exact .read rfl

theorem decodeGroups_veil (offset : Nat) (symbols : List UInt8) :
    ReadAlike offset symbols (decodeGroups offset symbols)
      (decodeGroups offset (symbols.map veilByte)) := by
  induction offset, symbols using decodeGroups.induct with
  | case1 offset => exact .read rfl
  | case2 offset a =>
      apply ReadAlike.valueAt_bind
      intro w first
      exact .refused _
  | case3 offset a b =>
      apply ReadAlike.valueAt_bind
      intro w first
      apply ReadAlike.valueAt_bind
      intro x second
      exact .refused _
  | case4 offset a b c =>
      apply ReadAlike.valueAt_bind
      intro w first
      apply ReadAlike.valueAt_bind
      intro x second
      simp only [veilByte_eq_padding_iff, ne_eq]
      by_cases completed : c = padding
      · simp only [completed]
        exact .refused _
      · simp only [completed]
        apply ReadAlike.valueAt_bind
        intro y third
        exact .refused _
  | case5 offset a b c d => exact decodeLastGroup_veil offset a b c d
  | case6 offset a b c d rest more ih =>
      have moreVeiled : rest.map veilByte ≠ [] := fun empty => more (List.map_eq_nil_iff.mp empty)
      simp only [List.map_cons]
      rw [decodeGroups_group _ _ _ _ _ more, decodeGroups_group _ _ _ _ _ moreVeiled,
        decodeGroup_veil]
      cases first : decodeGroup offset a b c d with
      | error fault => exact .refused fault
      | ok group =>
          simp only [Except.map, ok_bind]
          generalize decodeGroups (offset + 4) rest = result at ih
          generalize decodeGroups (offset + 4) (rest.map veilByte) = veiled at ih
          -- The first group is whole, so its bytes come before those of the rest and faults only move.
          cases ih with
          | read length =>
              apply ReadAlike.read
              rw [List.length_append, List.length_append, length, length_of_decodeGroup first]
              rfl
          | refused fault => exact .refused fault
          | lastSymbol front pads split isSymbol =>
              have place : offset + 4 + front.length = offset + (a :: b :: c :: d :: front).length := by
                simp only [List.length_cons]
                omega
              rw [place]
              exact .lastSymbol (a :: b :: c :: d :: front) pads (by rw [split]; rfl) isSymbol

theorem decodeBytes_veil (bytes : List UInt8) :
    ReadAlike 0 bytes (decodeBytes bytes) (decodeBytes (bytes.map veilByte)) := by
  rw [decodeBytes, decodeBytes, List.getLast?_map, List.length_map]
  cases bytes.getLast? with
  | none => exact .read rfl
  | some last =>
      have foreign : value? (veilByte last) = none ↔ value? last = none := by
        rw [value?_veilByte, Option.map_eq_none_iff]
      simp only [Option.map_some, ne_eq, veilByte_eq_padding_iff, foreign]
      split
      · next stray =>
          rw [veilByte_of_value?_eq_none stray.2.2]
          exact .refused _
      · exact decodeGroups_veil 0 bytes

/-! ## Texts under the veil -/

theorem value?_of_not_inAlphabet {c : Char} (foreign : ¬ InAlphabet c) :
    ∀ byte ∈ String.utf8EncodeChar c, value? byte = none := by
  intro byte member
  refine Option.eq_none_iff_forall_ne_some.mpr ?_
  intro value read
  have isSymbol := isSymbol_iff_toNat.mp ⟨value, read⟩
  apply foreign
  rw [inAlphabet_iff_toNat]
  rcases Utf8.toNat_of_mem_utf8EncodeChar c byte member with same | high
  · rw [← same]
    exact isSymbol
  · omega

theorem utf8EncodeChar_veilChar (c : Char) :
    String.utf8EncodeChar (veilChar c) = (String.utf8EncodeChar c).map veilByte := by
  by_cases inAlphabet : InAlphabet c
  · rw [veilChar, if_pos inAlphabet]
    obtain ⟨byte, isSymbol, rfl⟩ := exists_ofUInt8_of_inAlphabet inAlphabet
    obtain ⟨value, read⟩ := isSymbol
    obtain ⟨small, rfl⟩ := eq_symbol_of_value? read
    rw [Utf8.utf8EncodeChar_ofUInt8 (symbol_lt small), List.map_singleton,
      veilByte_of_isSymbol ⟨value, read⟩]
    rfl
  · rw [veilChar, if_neg inAlphabet]
    have same : ∀ byte ∈ String.utf8EncodeChar c, veilByte byte = byte := by
      intro byte member
      exact veilByte_of_value?_eq_none (value?_of_not_inAlphabet inAlphabet byte member)
    rw [List.map_congr_left same, List.map_id']

theorem encode_veil (text : String) :
    Utf8.encode (veil text) = (Utf8.encode text).map veilByte := by
  simp only [Utf8.encode, veil, String.toList_ofList, List.flatMap_map, List.map_flatMap,
    utf8EncodeChar_veilChar]

theorem decode_veil (text : String) :
    ReadAlike 0 (Utf8.encode text) (decode text) (decode (veil text)) := by
  rw [decode, decode, encode_veil]
  exact decodeBytes_veil _

theorem isBlank_veilChar (c : Char) : Blank.isBlank (veilChar c) = Blank.isBlank c := by
  by_cases inAlphabet : InAlphabet c
  · rw [veilChar, if_pos inAlphabet, isBlank_of_inAlphabet inAlphabet]
    rfl
  · rw [veilChar, if_neg inAlphabet]

theorem trim_veil (text : String) : Blank.trim (veil text) = veil (Blank.trim text) := by
  have sameBlanks : Blank.isBlank ∘ veilChar = Blank.isBlank := funext isBlank_veilChar
  rw [veil, veil, Blank.trim, Blank.trim]
  simp only [String.toList_ofList, Blank.trimChars, Blank.dropEndWhile, ← List.map_reverse,
    List.dropWhile_map, sameBlanks]

/-! ## Frames -/

/-- Whether two texts are of one length and differ in characters of the alphabet alone. -/
def SameFrame (text text' : String) : Prop :=
  List.Forall₂
    (fun byte byte' => ¬ InAlphabet (Char.ofUInt8 byte) ∨ ¬ InAlphabet (Char.ofUInt8 byte') →
      byte = byte')
    (Utf8.encode text) (Utf8.encode text')

instance (text text' : String) : Decidable (SameFrame text text') :=
  inferInstanceAs (Decidable (List.Forall₂ _ _ _))

theorem veil_eq_of_sameFrame {text text' : String} (same : SameFrame text text') :
    veil text = veil text' := by
  have bytes : (Utf8.encode text).map veilByte = (Utf8.encode text').map veilByte := by
    unfold SameFrame at same
    generalize Utf8.encode text = left at same
    generalize Utf8.encode text' = right at same
    induction same with
    | nil => rfl
    | @cons byte byte' _ _ agree _ ih =>
        rw [List.map_cons, List.map_cons, ih]
        rw [inAlphabet_ofUInt8_iff, inAlphabet_ofUInt8_iff] at agree
        by_cases symbols : IsSymbol byte ∧ IsSymbol byte'
        · rw [veilByte_of_isSymbol symbols.1, veilByte_of_isSymbol symbols.2]
        · rw [agree (not_and_or.mp symbols)]
  rw [← encode_veil, ← encode_veil] at bytes
  exact Utf8.encode_injective bytes

/-- The padding of a text can be told under the veil, and so can the place of its last symbol. -/
theorem length_front_eq {front front' : List UInt8} {byte byte' : UInt8} {pads pads' : Nat}
    (isSymbol : IsSymbol byte) (isSymbol' : IsSymbol byte')
    (same : (front ++ byte :: List.replicate pads padding).map veilByte =
      (front' ++ byte' :: List.replicate pads' padding).map veilByte) :
    front.length = front'.length := by
  have unpadded {start : List UInt8} {last : UInt8} (isLast : IsSymbol last) (count : Nat) :
      ((start ++ last :: List.replicate count padding).map veilByte).rdropWhile (· == padding) =
        start.map veilByte ++ [symbol 0] := by
    have filler : ∀ x ∈ List.replicate count padding, (x == padding) = true := by
      intro x member
      rw [List.eq_of_mem_replicate member]
      rfl
    have veiledPadding : veilByte padding = padding := rfl
    rw [List.map_append, List.map_cons, veilByte_of_isSymbol isLast, List.map_replicate,
      veiledPadding, List.append_cons, ← Blank.dropEndWhile_eq_rdropWhile,
      Blank.dropEndWhile_append_of_all _ filler]
    exact List.rdropWhile_concat_neg _ _ _ (by decide)
  have fronts := congrArg (List.rdropWhile (· == padding)) same
  rw [unpadded isSymbol, unpadded isSymbol'] at fronts
  have lengths := congrArg List.length fronts
  simpa using lengths

end SignedSession.Base64
