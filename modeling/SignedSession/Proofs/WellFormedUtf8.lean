import SignedSession.Text.Utf8

/-!
# Well-formed UTF-8

The encodings of texts, told by the ranges that their bytes lie in.  A character is one to four bytes: the
first says how many continue it, and with the second it keeps out forms that are longer than needed,
surrogates and numbers beyond the last character.  Bytes that are no encoding of a text are one up to
the first flaw, of which there are five kinds.
-/

set_option autoImplicit false

namespace SignedSession.Utf8

def Within (least greatest : Nat) (byte : UInt8) : Prop :=
  least ≤ byte.toNat ∧ byte.toNat ≤ greatest

instance (least greatest : Nat) (byte : UInt8) : Decidable (Within least greatest byte) :=
  inferInstanceAs (Decidable (_ ∧ _))

def IsContinuation (byte : UInt8) : Prop := Within 0x80 0xBF byte

instance (byte : UInt8) : Decidable (IsContinuation byte) :=
  inferInstanceAs (Decidable (Within _ _ _))

/-- The first two of three bytes. -/
def StartsThree (a b : UInt8) : Prop :=
  a.toNat = 0xE0 ∧ Within 0xA0 0xBF b ∨ Within 0xE1 0xEC a ∧ IsContinuation b ∨
    a.toNat = 0xED ∧ Within 0x80 0x9F b ∨ Within 0xEE 0xEF a ∧ IsContinuation b

/-- The first two of four bytes. -/
def StartsFour (a b : UInt8) : Prop :=
  a.toNat = 0xF0 ∧ Within 0x90 0xBF b ∨ Within 0xF1 0xF3 a ∧ IsContinuation b ∨
    a.toNat = 0xF4 ∧ Within 0x80 0x8F b

/-- Whether bytes are those of one character. -/
inductive IsCharacter : List UInt8 → Prop
  | one {a : UInt8} (first : a.toNat ≤ 0x7F) : IsCharacter [a]
  | two {a b : UInt8} (first : Within 0xC2 0xDF a) (second : IsContinuation b) : IsCharacter [a, b]
  | three {a b c : UInt8} (start : StartsThree a b) (third : IsContinuation c) :
      IsCharacter [a, b, c]
  | four {a b c d : UInt8} (start : StartsFour a b) (third : IsContinuation c)
      (fourth : IsContinuation d) : IsCharacter [a, b, c, d]

inductive WellFormed : List UInt8 → Prop
  | nil : WellFormed []
  | append {character rest : List UInt8} (first : IsCharacter character)
      (others : WellFormed rest) : WellFormed (character ++ rest)

/-! ## Characters and their bytes -/

theorem exists_toNat_eq {value : Nat} (valid : value.isValidChar) : ∃ c : Char, c.toNat = value :=
  ⟨Char.ofNatAux value valid, rfl⟩

theorem utf8EncodeChar_eq (c : Char) :
    String.utf8EncodeChar c =
      if c.toNat ≤ 0x7F then [UInt8.ofNat c.toNat]
      else if c.toNat ≤ 0x7FF then
        [UInt8.ofNat (c.toNat / 64 % 32 + 0xC0), UInt8.ofNat (c.toNat % 64 + 0x80)]
      else if c.toNat ≤ 0xFFFF then
        [UInt8.ofNat (c.toNat / 4096 % 16 + 0xE0), UInt8.ofNat (c.toNat / 64 % 64 + 0x80),
          UInt8.ofNat (c.toNat % 64 + 0x80)]
      else
        [UInt8.ofNat (c.toNat / 262144 % 8 + 0xF0), UInt8.ofNat (c.toNat / 4096 % 64 + 0x80),
          UInt8.ofNat (c.toNat / 64 % 64 + 0x80), UInt8.ofNat (c.toNat % 64 + 0x80)] := rfl

theorem ofNat_eq_of_eq_toNat {value : Nat} (byte : UInt8) (same : value = byte.toNat) :
    UInt8.ofNat value = byte := by
  rw [same, UInt8.ofNat_toNat]

theorem isContinuation_ofNat (value : Nat) : IsContinuation (UInt8.ofNat (value % 64 + 0x80)) := by
  unfold IsContinuation Within
  rw [UInt8.toNat_ofNat']
  omega

theorem isCharacter_utf8EncodeChar (c : Char) : IsCharacter (String.utf8EncodeChar c) := by
  have valid : c.toNat.isValidChar := c.valid
  unfold Nat.isValidChar at valid
  rw [utf8EncodeChar_eq]
  split
  · refine .one ?_
    rw [UInt8.toNat_ofNat']
    omega
  · split
    · refine .two ?_ (isContinuation_ofNat _)
      unfold Within
      rw [UInt8.toNat_ofNat']
      omega
    · split
      · refine .three ?_ (isContinuation_ofNat _)
        unfold StartsThree IsContinuation Within
        simp only [UInt8.toNat_ofNat']
        omega
      · refine .four ?_ (isContinuation_ofNat _) (isContinuation_ofNat _)
        unfold StartsFour IsContinuation Within
        simp only [UInt8.toNat_ofNat']
        omega

theorem exists_utf8EncodeChar_eq {bytes : List UInt8} (character : IsCharacter bytes) :
    ∃ c, String.utf8EncodeChar c = bytes := by
  cases character with
  | @one a first =>
      have valid : a.toNat.isValidChar := .inl (by omega)
      obtain ⟨c, code⟩ := exists_toNat_eq valid
      refine ⟨c, ?_⟩
      rw [utf8EncodeChar_eq, code, if_pos first, UInt8.ofNat_toNat]
  | @two a b first second =>
      unfold IsContinuation Within at *
      have valid : ((a.toNat - 0xC0) * 64 + (b.toNat - 0x80)).isValidChar := .inl (by omega)
      obtain ⟨c, code⟩ := exists_toNat_eq valid
      refine ⟨c, ?_⟩
      rw [utf8EncodeChar_eq, code, if_neg (by omega), if_pos (by omega),
        ofNat_eq_of_eq_toNat a (by omega), ofNat_eq_of_eq_toNat b (by omega)]
  | @three a b c start third =>
      unfold StartsThree IsContinuation Within at *
      have valid : ((a.toNat - 0xE0) * 4096 + (b.toNat - 0x80) * 64 +
          (c.toNat - 0x80)).isValidChar := by
        unfold Nat.isValidChar
        omega
      obtain ⟨character, code⟩ := exists_toNat_eq valid
      refine ⟨character, ?_⟩
      rw [utf8EncodeChar_eq, code, if_neg (by omega), if_neg (by omega), if_pos (by omega),
        ofNat_eq_of_eq_toNat a (by omega), ofNat_eq_of_eq_toNat b (by omega),
        ofNat_eq_of_eq_toNat c (by omega)]
  | @four a b c d start third fourth =>
      unfold StartsFour IsContinuation Within at *
      have valid : ((a.toNat - 0xF0) * 262144 + (b.toNat - 0x80) * 4096 +
          (c.toNat - 0x80) * 64 + (d.toNat - 0x80)).isValidChar := by
        unfold Nat.isValidChar
        omega
      obtain ⟨character, code⟩ := exists_toNat_eq valid
      refine ⟨character, ?_⟩
      rw [utf8EncodeChar_eq, code, if_neg (by omega), if_neg (by omega), if_neg (by omega),
        ofNat_eq_of_eq_toNat a (by omega), ofNat_eq_of_eq_toNat b (by omega),
        ofNat_eq_of_eq_toNat c (by omega), ofNat_eq_of_eq_toNat d (by omega)]

/-! ## Texts and their bytes -/

theorem wellFormed_encode (text : String) : WellFormed (encode text) := by
  unfold encode
  induction text.toList with
  | nil => exact .nil
  | cons c rest hypothesis => exact .append (isCharacter_utf8EncodeChar c) hypothesis

/-- Well-formed bytes are the encodings of texts. -/
theorem wellFormed_iff {bytes : List UInt8} :
    WellFormed bytes ↔ ∃ text, bytes = encode text := by
  constructor
  · intro wellFormed
    induction wellFormed with
    | nil => exact ⟨"", rfl⟩
    | append first others hypothesis =>
        obtain ⟨c, rfl⟩ := exists_utf8EncodeChar_eq first
        obtain ⟨text, rfl⟩ := hypothesis
        refine ⟨String.ofList (c :: text.toList), ?_⟩
        rw [encode, encode, String.toList_ofList, List.flatMap_cons]
  · rintro ⟨text, rfl⟩
    exact wellFormed_encode text

/-! ## Where a character begins -/

/-- How many bytes continue a character that begins with a byte. -/
def continuationCount (byte : UInt8) : Nat :=
  if byte.toNat < 0xC2 then 0
  else if byte.toNat < 0xE0 then 1
  else if byte.toNat < 0xF0 then 2
  else if byte.toNat < 0xF5 then 3
  else 0

theorem continuationCount_of_one {a : UInt8} (first : a.toNat ≤ 0x7F) : continuationCount a = 0 :=
  if_pos (by omega)

theorem continuationCount_of_two {a : UInt8} (first : Within 0xC2 0xDF a) :
    continuationCount a = 1 := by
  unfold Within at first
  rw [continuationCount, if_neg (by omega), if_pos (by omega)]

theorem continuationCount_of_three {a : UInt8} (first : Within 0xE0 0xEF a) :
    continuationCount a = 2 := by
  unfold Within at first
  rw [continuationCount, if_neg (by omega), if_neg (by omega), if_pos (by omega)]

theorem continuationCount_of_four {a : UInt8} (first : Within 0xF0 0xF4 a) :
    continuationCount a = 3 := by
  unfold Within at first
  rw [continuationCount, if_neg (by omega), if_neg (by omega), if_neg (by omega), if_pos (by omega)]

theorem StartsThree.within {a b : UInt8} (start : StartsThree a b) :
    Within 0xE0 0xEF a ∧ IsContinuation b := by
  unfold StartsThree IsContinuation Within at *
  omega

theorem StartsFour.within {a b : UInt8} (start : StartsFour a b) :
    Within 0xF0 0xF4 a ∧ IsContinuation b := by
  unfold StartsFour IsContinuation Within at *
  omega

namespace IsCharacter

variable {first : UInt8} {tail : List UInt8}

theorem length_tail (isCharacter : IsCharacter (first :: tail)) :
    tail.length = continuationCount first := by
  cases isCharacter with
  | one first => exact (continuationCount_of_one first).symm
  | two first second => exact (continuationCount_of_two first).symm
  | three start third => exact (continuationCount_of_three start.within.1).symm
  | four start third fourth => exact (continuationCount_of_four start.within.1).symm

theorem isContinuation_of_mem (isCharacter : IsCharacter (first :: tail)) :
    ∀ byte ∈ tail, IsContinuation byte := by
  cases isCharacter with
  | one first => simp
  | two first second => simpa using second
  | three start third => simpa using ⟨start.within.2, third⟩
  | four start third fourth => simpa using ⟨start.within.2, third, fourth⟩

theorem lead (isCharacter : IsCharacter (first :: tail)) :
    first.toNat ≤ 0x7F ∨ Within 0xC2 0xF4 first := by
  cases isCharacter with
  | one first => exact .inl first
  | two first second => exact .inr ⟨first.1, Nat.le_trans first.2 (by decide)⟩
  | three start third =>
      obtain ⟨least, greatest⟩ := start.within.1
      exact .inr ⟨Nat.le_trans (by decide) least, Nat.le_trans greatest (by decide)⟩
  | four start third fourth =>
      obtain ⟨least, greatest⟩ := start.within.1
      exact .inr ⟨Nat.le_trans (by decide) least, greatest⟩

theorem starts_of_mem_head? (isCharacter : IsCharacter (first :: tail)) {others : List UInt8}
    {second : UInt8} (next : second ∈ (tail ++ others).head?) (long : 0xE0 ≤ first.toNat) :
    StartsThree first second ∨ StartsFour first second := by
  cases isCharacter with
  | one first => omega
  | two first _ =>
      unfold Within at first
      omega
  | three start third =>
      cases next
      exact .inl start
  | four start third fourth =>
      cases next
      exact .inr start

/-- No character is the beginning of another one. -/
theorem append_inj {character character' rest rest' : List UInt8}
    (isCharacter : IsCharacter character) (isCharacter' : IsCharacter character')
    (same : character ++ rest = character' ++ rest') : character = character' ∧ rest = rest' := by
  match character, character', isCharacter, isCharacter', same with
  | first :: tail, first' :: tail', isCharacter, isCharacter', same =>
      obtain ⟨rfl, -⟩ := List.cons.inj same
      have lengths : tail.length = tail'.length :=
        isCharacter.length_tail.trans isCharacter'.length_tail.symm
      exact List.append_inj same (congrArg Nat.succ lengths)

end IsCharacter

theorem WellFormed.of_append {character rest : List UInt8} (first : IsCharacter character)
    (wellFormed : WellFormed (character ++ rest)) : WellFormed rest := by
  generalize whole : character ++ rest = bytes at wellFormed
  cases wellFormed with
  | nil =>
      cases first <;> cases whole
  | append first' others =>
      obtain ⟨-, rfl⟩ := first.append_inj first' whole
      exact others

/-! ## Flaws -/

/-- Why a byte and what follows it do not begin with a character.  A character is unfinished where a byte
that should continue it is another one or is not there. -/
inductive Flaw (first : UInt8) (rest : List UInt8) : Prop
  | stray (continues : IsContinuation first)
  | unfinished {index : Nat} (within : index < continuationCount first)
      (missing : ∀ byte ∈ rest[index]?, ¬ IsContinuation byte)
  | overlong
      (short : Within 0xC0 0xC1 first ∨ ∃ second ∈ rest.head?,
        first.toNat = 0xE0 ∧ Within 0x80 0x9F second ∨ first.toNat = 0xF0 ∧ Within 0x80 0x8F second)
  | surrogate
      (reserved : first.toNat = 0xED ∧ ∃ second ∈ rest.head?, Within 0xA0 0xBF second)
  | tooGreat
      (beyond : 0xF5 ≤ first.toNat ∨
        first.toNat = 0xF4 ∧ ∃ second ∈ rest.head?, Within 0x90 0xBF second)

theorem not_flaw_of_isCharacter {first : UInt8} {tail : List UInt8}
    (isCharacter : IsCharacter (first :: tail)) (others : List UInt8) :
    ¬ Flaw first (tail ++ others) := by
  have lead := isCharacter.lead
  have starts {second : UInt8} (next : second ∈ (tail ++ others).head?) (long : 0xE0 ≤ first.toNat) :=
    isCharacter.starts_of_mem_head? next long
  unfold StartsThree StartsFour at starts
  intro flaw
  cases flaw with
  | @unfinished index within missing =>
      have inside : index < tail.length := isCharacter.length_tail.symm ▸ within
      refine missing tail[index] ?_ (isCharacter.isContinuation_of_mem _ (List.getElem_mem inside))
      rw [List.getElem?_append_left inside, List.getElem?_eq_getElem inside]
      rfl
  | stray continues =>
      unfold IsContinuation Within at *
      omega
  | overlong short =>
      rcases short with short | ⟨second, next, short⟩
      · unfold Within at *
        omega
      · have start := starts next (by omega)
        unfold IsContinuation Within at *
        omega
  | surrogate reserved =>
      obtain ⟨_, second, next, reserved⟩ := reserved
      have start := starts next (by omega)
      unfold IsContinuation Within at *
      omega
  | tooGreat beyond =>
      rcases beyond with beyond | ⟨_, second, next, beyond⟩
      · unfold Within at *
        omega
      · have start := starts next (by omega)
        unfold IsContinuation Within at *
        omega

theorem exists_tail_of_continued {count : Nat} {rest : List UInt8}
    (continued : ∀ index < count, ∃ byte ∈ rest[index]?, IsContinuation byte) :
    ∃ tail others, rest = tail ++ others ∧ tail.length = count ∧
      ∀ byte ∈ tail, IsContinuation byte := by
  induction count generalizing rest with
  | zero => exact ⟨[], rest, rfl, rfl, by simp⟩
  | succ count hypothesis =>
      cases rest with
      | nil =>
          obtain ⟨byte, found, -⟩ := continued 0 (Nat.succ_pos count)
          cases found
      | cons first rest =>
          obtain ⟨byte, found, continues⟩ := continued 0 (Nat.succ_pos count)
          cases found
          obtain ⟨tail, others, rfl, length, all⟩ :=
            hypothesis fun index within => continued (index + 1) (Nat.succ_lt_succ within)
          exact ⟨first :: tail, others, rfl, congrArg Nat.succ length,
            List.forall_mem_cons.mpr ⟨continues, all⟩⟩

theorem startsThree_of_not_flaw {first second : UInt8} {rest : List UInt8}
    (sound : ¬ Flaw first (second :: rest)) (range : Within 0xE0 0xEF first)
    (continues : IsContinuation second) : StartsThree first second := by
  have notShort : ¬ (first.toNat = 0xE0 ∧ Within 0x80 0x9F second) := fun short =>
    sound (.overlong (.inr ⟨second, rfl, .inl short⟩))
  have notReserved : ¬ (first.toNat = 0xED ∧ Within 0xA0 0xBF second) := fun reserved =>
    sound (.surrogate ⟨reserved.1, second, rfl, reserved.2⟩)
  unfold StartsThree IsContinuation Within at *
  omega

theorem startsFour_of_not_flaw {first second : UInt8} {rest : List UInt8}
    (sound : ¬ Flaw first (second :: rest)) (range : Within 0xF0 0xF4 first)
    (continues : IsContinuation second) : StartsFour first second := by
  have notShort : ¬ (first.toNat = 0xF0 ∧ Within 0x80 0x8F second) := fun short =>
    sound (.overlong (.inr ⟨second, rfl, .inr short⟩))
  have notBeyond : ¬ (first.toNat = 0xF4 ∧ Within 0x90 0xBF second) := fun beyond =>
    sound (.tooGreat (.inr ⟨beyond.1, second, rfl, beyond.2⟩))
  unfold StartsFour IsContinuation Within at *
  omega

/-- Bytes begin with a character unless they have a flaw. -/
theorem exists_isCharacter_of_not_flaw {first : UInt8} {rest : List UInt8}
    (sound : ¬ Flaw first rest) :
    ∃ tail others, rest = tail ++ others ∧ IsCharacter (first :: tail) := by
  have continued : ∀ index < continuationCount first, ∃ byte ∈ rest[index]?, IsContinuation byte := by
    intro index within
    refine Classical.byContradiction fun missing => sound (.unfinished within ?_)
    intro byte found continues
    exact missing ⟨byte, found, continues⟩
  have notStray : ¬ IsContinuation first := fun stray => sound (.stray stray)
  have notShort : ¬ Within 0xC0 0xC1 first := fun short => sound (.overlong (.inl short))
  have notBeyond : ¬ 0xF5 ≤ first.toNat := fun beyond => sound (.tooGreat (.inl beyond))
  obtain ⟨tail, others, rfl, length, all⟩ := exists_tail_of_continued continued
  refine ⟨tail, others, rfl, ?_⟩
  have lead : first.toNat ≤ 0x7F ∨ Within 0xC2 0xDF first ∨ Within 0xE0 0xEF first ∨
      Within 0xF0 0xF4 first := by
    unfold IsContinuation Within at *
    omega
  rcases lead with one | two | three | four
  · rw [continuationCount_of_one one] at length
    cases List.eq_nil_of_length_eq_zero length
    exact .one one
  · rw [continuationCount_of_two two] at length
    match tail, length, all with
    | [b], _, all => exact .two two (all b (by simp))
  · rw [continuationCount_of_three three] at length
    match tail, length, all, sound with
    | [b, c], _, all, sound =>
        exact .three (startsThree_of_not_flaw sound three (all b (by simp))) (all c (by simp))
  · rw [continuationCount_of_four four] at length
    match tail, length, all, sound with
    | [b, c, d], _, all, sound =>
        exact .four (startsFour_of_not_flaw sound four (all b (by simp))) (all c (by simp))
          (all d (by simp))

theorem not_wellFormed_of_flaw {first : UInt8} {rest : List UInt8} (flaw : Flaw first rest) :
    ¬ WellFormed (first :: rest) := by
  intro wellFormed
  generalize whole : first :: rest = bytes at wellFormed
  cases wellFormed with
  | nil => cases whole
  | @append character others isCharacter =>
      match character, isCharacter, whole with
      | lead :: tail, isCharacter, whole =>
          obtain ⟨rfl, rfl⟩ := List.cons.inj whole
          exact not_flaw_of_isCharacter isCharacter others flaw

/-- A flaw anywhere spoils the bytes. -/
theorem not_wellFormed_append_of_flaw {before rest : List UInt8} {first : UInt8}
    (wellFormed : WellFormed before) (flaw : Flaw first rest) :
    ¬ WellFormed (before ++ first :: rest) := by
  induction wellFormed with
  | nil => exact not_wellFormed_of_flaw flaw
  | append isCharacter others hypothesis =>
      intro whole
      rw [List.append_assoc] at whole
      exact hypothesis (whole.of_append isCharacter)

theorem wellFormed_or_exists_flaw (bytes : List UInt8) :
    WellFormed bytes ∨ ∃ before first rest, bytes = before ++ first :: rest ∧ WellFormed before ∧
      Flaw first rest := by
  induction length : bytes.length using Nat.strongRecOn generalizing bytes with
  | ind size hypothesis =>
      cases bytes with
      | nil => exact .inl .nil
      | cons first rest =>
          by_cases flaw : Flaw first rest
          · exact .inr ⟨[], first, rest, rfl, .nil, flaw⟩
          · obtain ⟨tail, others, rfl, isCharacter⟩ := exists_isCharacter_of_not_flaw flaw
            have fewer : others.length < size := by
              rw [← length, List.length_cons, List.length_append]
              omega
            rcases hypothesis _ fewer others rfl with wellFormed | ⟨before, a, more, rfl, sound, flaw⟩
            · exact .inl (.append isCharacter wellFormed)
            · refine .inr ⟨first :: tail ++ before, a, more, ?_, .append isCharacter sound, flaw⟩
              rw [List.append_assoc]
              rfl

/-- Bytes that are no encoding of a text are one up to the first flaw. -/
theorem ne_encode_iff {bytes : List UInt8} :
    (∀ text, bytes ≠ encode text) ↔
      ∃ before first rest, bytes = encode before ++ first :: rest ∧ Flaw first rest := by
  constructor
  · intro foreign
    rcases wellFormed_or_exists_flaw bytes with wellFormed | ⟨before, first, rest, rfl, sound, flaw⟩
    · obtain ⟨text, rfl⟩ := wellFormed_iff.mp wellFormed
      exact absurd rfl (foreign text)
    · obtain ⟨text, rfl⟩ := wellFormed_iff.mp sound
      exact ⟨text, first, rest, rfl, flaw⟩
  · rintro ⟨before, first, rest, rfl, flaw⟩ text same
    exact not_wellFormed_append_of_flaw (wellFormed_encode before) flaw
      (wellFormed_iff.mpr ⟨text, same⟩)

end SignedSession.Utf8
