/-!
# Numbers in big-endian order

`toBytes width value` writes `value` modulo `capacity width` as `width` bytes, the most significant
first; `ofBytes` reads such bytes.  `ofBytes_toBytes` and `toBytes_ofBytes` say that the two undo
each other.
-/

set_option autoImplicit false

namespace SignedSession.BigEndian

/-- The last `width` digits of `value` in base 256, the most significant first. -/
def toBytes : (width : Nat) → Nat → List UInt8
  | 0, _ => []
  | width + 1, value => toBytes width (value / 256) ++ [UInt8.ofNat value]

def ofBytes (bytes : List UInt8) : Nat :=
  bytes.foldl (fun value byte => value * 256 + byte.toNat) 0

/-- How many numbers `width` digits in base 256 can write. -/
def capacity : (width : Nat) → Nat
  | 0 => 1
  | width + 1 => 256 * capacity width

@[simp] theorem length_toBytes (width value : Nat) : (toBytes width value).length = width := by
  induction width generalizing value with
  | zero => rfl
  | succ width ih => simp [toBytes, ih]

theorem ofBytes_concat (bytes : List UInt8) (byte : UInt8) :
    ofBytes (bytes ++ [byte]) = ofBytes bytes * 256 + byte.toNat := by
  simp [ofBytes]

theorem ofBytes_toBytes (width value : Nat) :
    ofBytes (toBytes width value) = value % capacity width := by
  induction width generalizing value with
  | zero => simp [toBytes, ofBytes, capacity, Nat.mod_one]
  | succ width ih =>
      rw [toBytes, ofBytes_concat, ih, capacity, Nat.mod_mul, Nat.mul_comm, Nat.add_comm]
      simp

theorem ofBytes_lt {width : Nat} {bytes : List UInt8} (length : bytes.length = width) :
    ofBytes bytes < capacity width := by
  induction width generalizing bytes with
  | zero => simp [List.eq_nil_of_length_eq_zero length, ofBytes, capacity]
  | succ width ih =>
      rcases List.eq_nil_or_concat bytes with rfl | ⟨front, last, rfl⟩
      · simp at length
      · have small := last.toNat_lt
        have frontLength : front.length = width := by simpa using length
        have bound := ih frontLength
        rw [List.concat_eq_append, ofBytes_concat, capacity]
        omega

theorem toBytes_ofBytes {width : Nat} {bytes : List UInt8} (length : bytes.length = width) :
    toBytes width (ofBytes bytes) = bytes := by
  induction width generalizing bytes with
  | zero => simp [List.eq_nil_of_length_eq_zero length, toBytes]
  | succ width ih =>
      rcases List.eq_nil_or_concat bytes with rfl | ⟨front, last, rfl⟩
      · simp at length
      · have small := last.toNat_lt
        have quotient : (ofBytes front * 256 + last.toNat) / 256 = ofBytes front := by omega
        rw [List.concat_eq_append, ofBytes_concat, toBytes, quotient, ih (by simpa using length)]
        congr 2
        apply UInt8.toNat_inj.mp
        simp only [UInt8.toNat_ofNat']
        omega

end SignedSession.BigEndian
