import SignedSession.Hash.Hmac

/-!
# Key derivation with HMAC

`extract` condenses key material to one uniform key, `expand` draws from such a key as many bytes
as are asked for, bound to a label.  At most 255 blocks can be drawn.
-/

set_option autoImplicit false

namespace SignedSession.Hkdf

def maxLength : Nat := 255 * 32

/-- The key condensed from material, under a salt of 32 zero bytes unless one is given. -/
def extract (salt : Option (List UInt8)) (material : List UInt8) : Bytes 32 :=
  hmac (salt.getD (List.replicate 32 0)) material

/-- `count` blocks of output.  Each is the code of the block before it, the label and its own
index, which is the one given for the first of them. -/
def outputBlocks (key : Bytes 32) (label : List UInt8) :
    (count : Nat) → (index : UInt8) → (previous : List UInt8) → List UInt8
  | 0, _, _ => []
  | count + 1, index, previous =>
      let block := hmac key.toList (previous ++ label ++ [index])
      block.toList ++ outputBlocks key label count (index + 1) block.toList

theorem length_outputBlocks (key : Bytes 32) (label : List UInt8) (count : Nat) (index : UInt8)
    (previous : List UInt8) :
    (outputBlocks key label count index previous).length = 32 * count := by
  induction count generalizing index previous with
  | zero => rfl
  | succ count ih =>
      rw [outputBlocks, List.length_append, Bytes.length_toList, ih]
      omega

def expand (key : Bytes 32) (label : List UInt8) (length : Nat) : Option (Bytes length) :=
  if length ≤ maxLength then
    some
      { toList := (outputBlocks key label ((length + 31) / 32) 1 []).take length
        length_toList := by
          rw [List.length_take, length_outputBlocks]
          omega }
  else none

end SignedSession.Hkdf
