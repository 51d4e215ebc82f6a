/-!
# Bytes of a fixed length

Keys, digests and tokens are byte strings whose length is part of what they are, so the length
is in the type.  `Bytes n` is a list of `n` bytes; `sameBytes` compares two of them without
stopping at the first difference, and `sameBytes_iff` says that it decides equality.
-/

set_option autoImplicit false

namespace SignedSession

structure Bytes (n : Nat) where
  toList : List UInt8
  length_toList : toList.length = n
deriving DecidableEq

namespace Bytes

variable {m n : Nat}

@[ext] theorem ext {left right : Bytes n} (same : left.toList = right.toList) : left = right := by
  cases left
  cases right
  simp_all

def ofList? (n : Nat) (bytes : List UInt8) : Option (Bytes n) :=
  if h : bytes.length = n then some ⟨bytes, h⟩ else none

theorem ofList?_toList (bytes : Bytes n) : ofList? n bytes.toList = some bytes := by
  simp [ofList?, bytes.length_toList]

theorem ofList?_eq_some_iff {list : List UInt8} {bytes : Bytes n} :
    ofList? n list = some bytes ↔ list = bytes.toList := by
  constructor
  · intro h
    simp only [ofList?] at h
    split at h
    · cases h
      rfl
    · cases h
  · rintro rfl
    exact ofList?_toList bytes

theorem ofList?_eq_none_iff {list : List UInt8} : ofList? n list = none ↔ list.length ≠ n := by
  simp [ofList?]

def append (left : Bytes m) (right : Bytes n) : Bytes (m + n) where
  toList := left.toList ++ right.toList
  length_toList := by simp [left.length_toList, right.length_toList]

@[simp] theorem toList_append (left : Bytes m) (right : Bytes n) :
    (left.append right).toList = left.toList ++ right.toList := rfl

def take (m : Nat) (bytes : Bytes (m + n)) : Bytes m where
  toList := bytes.toList.take m
  length_toList := by simp [bytes.length_toList]

def drop (m : Nat) (bytes : Bytes (m + n)) : Bytes n where
  toList := bytes.toList.drop m
  length_toList := by simp [bytes.length_toList]

@[simp] theorem take_append (left : Bytes m) (right : Bytes n) :
    (left.append right).take m = left := by
  ext1
  simp [take, left.length_toList]

@[simp] theorem drop_append (left : Bytes m) (right : Bytes n) :
    (left.append right).drop m = right := by
  ext1
  simp [drop, left.length_toList]

@[simp] theorem append_take_drop (bytes : Bytes (m + n)) :
    (bytes.take m).append (bytes.drop m) = bytes := by
  ext1
  simp [take, drop]

/-! ## Comparison that reads every byte -/

/-- The bits in which two byte lists of one length differ, gathered into one byte. -/
def difference (left right : List UInt8) : UInt8 :=
  (List.zipWith (· ^^^ ·) left right).foldl (· ||| ·) 0

/-- Whether two byte strings agree, found by reading both to the end. -/
def sameBytes (left right : Bytes n) : Bool :=
  difference left.toList right.toList == 0

theorem foldl_or_eq_zero_iff (bytes : List UInt8) (start : UInt8) :
    bytes.foldl (· ||| ·) start = 0 ↔ start = 0 ∧ ∀ byte ∈ bytes, byte = 0 := by
  induction bytes generalizing start with
  | nil => simp
  | cons byte rest ih =>
      rw [List.foldl_cons, ih, UInt8.or_eq_zero_iff]
      simp [and_assoc]

theorem difference_eq_zero_iff {left right : List UInt8} (sameLength : left.length = right.length) :
    difference left right = 0 ↔ left = right := by
  rw [difference, foldl_or_eq_zero_iff]
  induction left generalizing right with
  | nil =>
      cases right with
      | nil => simp
      | cons _ _ => simp at sameLength
  | cons x xs ih =>
      cases right with
      | nil => simp at sameLength
      | cons y ys =>
          have tailLength : xs.length = ys.length := by simpa using sameLength
          have tails := ih tailLength
          simp only [true_and] at tails
          simp [tails]

@[simp] theorem sameBytes_iff (left right : Bytes n) : left.sameBytes right = true ↔ left = right := by
  rw [sameBytes, beq_iff_eq,
    difference_eq_zero_iff (left.length_toList.trans right.length_toList.symm)]
  exact ⟨ext, fun h => h ▸ rfl⟩

end Bytes
end SignedSession
