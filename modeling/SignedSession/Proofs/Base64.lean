import SignedSession.Proofs.Result
import SignedSession.Text.Base64

/-!
# Canonical base64

Reading undoes writing, and what is read is the one text that is written for its bytes:
`decode text = .ok bytes ↔ text = encode bytes`.  Both directions go group by group.  A whole group
is four six-bit values on one side and three bytes on the other, and so is a completed last group
whose unused bits are zero.
-/

set_option autoImplicit false

namespace SignedSession.Base64

/-! ## Symbols -/

theorem value?_symbol {value : Nat} (small : value < 64) : value? (symbol value) = some value := by
  have all : ∀ v ∈ List.range 64, value? (symbol v) = some v := by decide
  exact all value (List.mem_range.mpr small)

/-- Whether a byte stands for six bits. -/
def IsSymbol (byte : UInt8) : Prop := ∃ value, value? byte = some value

theorem isSymbol_symbol {value : Nat} (small : value < 64) : IsSymbol (symbol value) :=
  ⟨value, value?_symbol small⟩

theorem symbol_lt {value : Nat} (small : value < 64) : symbol value < 128 := by
  have all : ∀ v ∈ List.range 64, symbol v < 128 := by decide
  exact all value (List.mem_range.mpr small)

theorem symbol_ne_padding {value : Nat} (small : value < 64) : symbol value ≠ padding := by
  intro same
  have read := value?_symbol small
  rw [same] at read
  cases read

theorem eq_symbol_of_value? {byte : UInt8} {value : Nat} (read : value? byte = some value) :
    value < 64 ∧ byte = symbol value := by
  simp only [value?, UInt8.le_iff_toNat_le, UInt8.reduceToNat] at read
  split at read
  · cases read
    have letter : 65 + (byte.toNat - 65) = byte.toNat := by omega
    rw [symbol, if_pos (by omega), letter, UInt8.ofNat_toNat]
    exact ⟨by omega, rfl⟩
  · split at read
    · cases read
      have letter : 71 + (byte.toNat - 71) = byte.toNat := by omega
      rw [symbol, if_neg (by omega), if_pos (by omega), letter, UInt8.ofNat_toNat]
      exact ⟨by omega, rfl⟩
    · split at read
      · cases read
        rw [symbol, if_neg (by omega), if_neg (by omega), if_pos (by omega), Nat.add_sub_cancel,
          UInt8.ofNat_toNat]
        exact ⟨by omega, rfl⟩
      · split at read
        · next plus =>
            cases read
            exact ⟨by decide, plus⟩
        · split at read
          · next slash =>
              cases read
              exact ⟨by decide, slash⟩
          · cases read

theorem valueAt_symbol {value : Nat} (offset : Nat) (small : value < 64) :
    valueAt offset (symbol value) = .ok value := by
  simp only [valueAt, value?_symbol small]

theorem eq_symbol_of_valueAt {offset value : Nat} {byte : UInt8}
    (read : valueAt offset byte = .ok value) : value < 64 ∧ byte = symbol value := by
  cases found : value? byte with
  | none => simp [valueAt, found] at read
  | some actual =>
      simp only [valueAt, found, Except.ok.injEq] at read
      subst actual
      exact eq_symbol_of_value? found

/-! ## Groups -/

section Groups

variable {w x y z : Nat}

theorem toNat_firstByte (wSmall : w < 64) (xSmall : x < 64) :
    (firstByte w x).toNat = w * 4 + x / 16 := by
  rw [firstByte, UInt8.toNat_ofNat']
  omega

theorem toNat_secondByte (ySmall : y < 64) :
    (secondByte x y).toNat = x % 16 * 16 + y / 4 := by
  rw [secondByte, UInt8.toNat_ofNat']
  omega

theorem toNat_thirdByte (zSmall : z < 64) : (thirdByte y z).toNat = y % 4 * 64 + z := by
  rw [thirdByte, UInt8.toNat_ofNat']
  omega

theorem encodeBytes_group (wSmall : w < 64) (xSmall : x < 64) (ySmall : y < 64) (zSmall : z < 64)
    (rest : List UInt8) :
    encodeBytes (firstByte w x :: secondByte x y :: thirdByte y z :: rest) =
      symbol w :: symbol x :: symbol y :: symbol z :: encodeBytes rest := by
  have first : (w * 4 + x / 16) / 4 = w := by omega
  have second : (w * 4 + x / 16) % 4 * 16 + (x % 16 * 16 + y / 4) / 16 = x := by omega
  have third : (x % 16 * 16 + y / 4) % 16 * 4 + (y % 4 * 64 + z) / 64 = y := by omega
  have fourth : (y % 4 * 64 + z) % 64 = z := by omega
  rw [encodeBytes, toNat_firstByte wSmall xSmall, toNat_secondByte ySmall, toNat_thirdByte zSmall,
    first, second, third, fourth]

/-- Two bytes fill three symbols but for the last two bits. -/
theorem encodeBytes_pair (wSmall : w < 64) (xSmall : x < 64) (ySmall : y < 64)
    (unused : y % 4 = 0) :
    encodeBytes [firstByte w x, secondByte x y] = [symbol w, symbol x, symbol y, padding] := by
  have first : (w * 4 + x / 16) / 4 = w := by omega
  have second : (w * 4 + x / 16) % 4 * 16 + (x % 16 * 16 + y / 4) / 16 = x := by omega
  have third : (x % 16 * 16 + y / 4) % 16 * 4 = y := by omega
  rw [encodeBytes, toNat_firstByte wSmall xSmall, toNat_secondByte ySmall, first, second, third]

/-- One byte fills two symbols but for the last four bits. -/
theorem encodeBytes_single (wSmall : w < 64) (xSmall : x < 64) (unused : x % 16 = 0) :
    encodeBytes [firstByte w x] = [symbol w, symbol x, padding, padding] := by
  have first : (w * 4 + x / 16) / 4 = w := by omega
  have second : (w * 4 + x / 16) % 4 * 16 = x := by omega
  rw [encodeBytes, toNat_firstByte wSmall xSmall, first, second]

theorem firstByte_split (byte : UInt8) (next : Nat) (small : next < 16) :
    firstByte (byte.toNat / 4) (byte.toNat % 4 * 16 + next) = byte := by
  have whole : byte.toNat / 4 * 4 + (byte.toNat % 4 * 16 + next) / 16 = byte.toNat := by omega
  rw [firstByte, whole, UInt8.ofNat_toNat]

theorem secondByte_split (byte : UInt8) (previous next : Nat) (small : next < 4) :
    secondByte (previous * 16 + byte.toNat / 16) (byte.toNat % 16 * 4 + next) = byte := by
  have bound := byte.toNat_lt
  apply UInt8.toNat_inj.mp
  rw [secondByte, UInt8.toNat_ofNat']
  omega

theorem thirdByte_split (byte : UInt8) (previous : Nat) :
    thirdByte (previous * 4 + byte.toNat / 64) (byte.toNat % 64) = byte := by
  have bound := byte.toNat_lt
  apply UInt8.toNat_inj.mp
  rw [thirdByte, UInt8.toNat_ofNat']
  omega

end Groups

/-! ## Reading what was written -/

theorem decodeGroup_symbols {offset w x y z : Nat} (wSmall : w < 64) (xSmall : x < 64)
    (ySmall : y < 64) (zSmall : z < 64) :
    decodeGroup offset (symbol w) (symbol x) (symbol y) (symbol z) =
      .ok [firstByte w x, secondByte x y, thirdByte y z] := by
  rw [decodeGroup, valueAt_symbol _ wSmall, valueAt_symbol _ xSmall, valueAt_symbol _ ySmall,
    valueAt_symbol _ zSmall]
  rfl

theorem decodeLastGroup_symbols {offset w x y z : Nat} (wSmall : w < 64) (xSmall : x < 64)
    (ySmall : y < 64) (zSmall : z < 64) :
    decodeLastGroup offset (symbol w) (symbol x) (symbol y) (symbol z) =
      .ok [firstByte w x, secondByte x y, thirdByte y z] := by
  simp only [decodeLastGroup, valueAt_symbol _ wSmall, valueAt_symbol _ xSmall,
    valueAt_symbol _ ySmall, valueAt_symbol _ zSmall, ok_bind, symbol_ne_padding ySmall,
    symbol_ne_padding zSmall, if_false]
  rfl

theorem decodeLastGroup_pair {offset w x y : Nat} (wSmall : w < 64) (xSmall : x < 64)
    (ySmall : y < 64) (unused : y % 4 = 0) :
    decodeLastGroup offset (symbol w) (symbol x) (symbol y) padding =
      .ok [firstByte w x, secondByte x y] := by
  simp only [decodeLastGroup, valueAt_symbol _ wSmall, valueAt_symbol _ xSmall,
    valueAt_symbol _ ySmall, ok_bind, symbol_ne_padding ySmall, unused, if_false, if_true, ne_eq,
    not_true_eq_false]
  rfl

theorem decodeLastGroup_single {offset w x : Nat} (wSmall : w < 64) (xSmall : x < 64)
    (unused : x % 16 = 0) :
    decodeLastGroup offset (symbol w) (symbol x) padding padding = .ok [firstByte w x] := by
  simp only [decodeLastGroup, valueAt_symbol _ wSmall, valueAt_symbol _ xSmall, ok_bind, unused,
    if_false, if_true, ne_eq, not_true_eq_false]
  rfl

theorem encodeBytes_ne_nil {bytes : List UInt8} (nonempty : bytes ≠ []) :
    encodeBytes bytes ≠ [] := by
  cases bytes using encodeBytes.induct with
  | case1 => exact absurd rfl nonempty
  | case2 a => simp [encodeBytes]
  | case3 a b => simp [encodeBytes]
  | case4 a b c rest => simp [encodeBytes]

theorem decodeGroups_group (offset : Nat) (a b c d : UInt8) {rest : List UInt8} (more : rest ≠ []) :
    decodeGroups offset (a :: b :: c :: d :: rest) = (do
      let bytes ← decodeGroup offset a b c d
      return bytes ++ (← decodeGroups (offset + 4) rest)) :=
  decodeGroups.eq_6 _ _ _ _ _ _ more

theorem decodeGroups_encodeBytes (offset : Nat) (bytes : List UInt8) :
    decodeGroups offset (encodeBytes bytes) = .ok bytes := by
  induction bytes using encodeBytes.induct generalizing offset with
  | case1 => rfl
  | case2 a =>
      have aSmall := a.toNat_lt
      have first := firstByte_split a 0 (by omega)
      rw [encodeBytes, decodeGroups, decodeLastGroup_single (by omega) (by omega) (by omega)]
      exact congrArg (fun byte => Except.ok [byte]) first
  | case3 a b =>
      have aSmall := a.toNat_lt
      have bSmall := b.toNat_lt
      have first := firstByte_split a (b.toNat / 16) (by omega)
      have second := secondByte_split b (a.toNat % 4) 0 (by omega)
      rw [Nat.add_zero] at second
      rw [encodeBytes, decodeGroups, decodeLastGroup_pair (by omega) (by omega) (by omega)
        (by omega), first, second]
  | case4 a b c rest ih =>
      have aSmall := a.toNat_lt
      have bSmall := b.toNat_lt
      have cSmall := c.toNat_lt
      have first := firstByte_split a (b.toNat / 16) (by omega)
      have second := secondByte_split b (a.toNat % 4) (c.toNat / 64) (by omega)
      have third := thirdByte_split c (b.toNat % 16)
      by_cases finished : rest = []
      · subst rest
        rw [encodeBytes, encodeBytes, decodeGroups, decodeLastGroup_symbols (by omega) (by omega)
          (by omega) (by omega), first, second, third]
      · have more := encodeBytes_ne_nil finished
        rw [encodeBytes, decodeGroups_group _ _ _ _ _ more, decodeGroup_symbols (by omega) (by omega)
          (by omega) (by omega), ih, first, second, third]
        rfl

theorem length_encodeBytes (bytes : List UInt8) :
    (encodeBytes bytes).length = 4 * ((bytes.length + 2) / 3) := by
  induction bytes using encodeBytes.induct with
  | case1 => rfl
  | case2 a => simp [encodeBytes]
  | case3 a b => simp [encodeBytes]
  | case4 a b c rest ih =>
      simp only [encodeBytes, List.length_cons, ih]
      omega

theorem decodeBytes_encodeBytes (bytes : List UInt8) :
    decodeBytes (encodeBytes bytes) = .ok bytes := by
  have whole : ¬ (encodeBytes bytes).length % 4 = 1 := by
    rw [length_encodeBytes]
    omega
  have groups := decodeGroups_encodeBytes 0 bytes
  rw [decodeBytes]
  split
  · next empty =>
      rw [List.getLast?_eq_none_iff.mp empty] at groups
      exact groups
  · rw [if_neg (fun stray => whole stray.1)]
    exact groups

/-! ## Only what was written is read -/

theorem encodeBytes_of_decodeGroup {offset : Nat} {a b c d : UInt8} {bytes : List UInt8}
    (read : decodeGroup offset a b c d = .ok bytes) (rest : List UInt8) :
    encodeBytes (bytes ++ rest) = a :: b :: c :: d :: encodeBytes rest := by
  simp only [decodeGroup, bind_eq_ok_iff] at read
  obtain ⟨w, first, x, second, y, third, z, fourth, result⟩ := read
  obtain ⟨wSmall, rfl⟩ := eq_symbol_of_valueAt first
  obtain ⟨xSmall, rfl⟩ := eq_symbol_of_valueAt second
  obtain ⟨ySmall, rfl⟩ := eq_symbol_of_valueAt third
  obtain ⟨zSmall, rfl⟩ := eq_symbol_of_valueAt fourth
  cases result
  exact encodeBytes_group wSmall xSmall ySmall zSmall rest

theorem encodeBytes_of_decodeLastGroup {offset : Nat} {a b c d : UInt8} {bytes : List UInt8}
    (read : decodeLastGroup offset a b c d = .ok bytes) : encodeBytes bytes = [a, b, c, d] := by
  simp only [decodeLastGroup, bind_eq_ok_iff] at read
  obtain ⟨w, first, x, second, read⟩ := read
  obtain ⟨wSmall, rfl⟩ := eq_symbol_of_valueAt first
  obtain ⟨xSmall, rfl⟩ := eq_symbol_of_valueAt second
  by_cases thirdPadding : c = padding
  · subst thirdPadding
    by_cases fourthPadding : d = padding
    · subst fourthPadding
      by_cases unused : x % 16 = 0
      · simp only [unused, if_true, ne_eq, not_true_eq_false, if_false] at read
        cases read
        exact encodeBytes_single wSmall xSmall unused
      · simp [unused] at read
        cases read
    · simp [fourthPadding] at read
      cases read
  · rw [if_neg thirdPadding, bind_eq_ok_iff] at read
    obtain ⟨y, third, read⟩ := read
    obtain ⟨ySmall, rfl⟩ := eq_symbol_of_valueAt third
    by_cases fourthPadding : d = padding
    · subst fourthPadding
      by_cases unused : y % 4 = 0
      · simp only [unused, if_true, ne_eq, not_true_eq_false, if_false] at read
        cases read
        exact encodeBytes_pair wSmall xSmall ySmall unused
      · simp [unused] at read
        cases read
    · rw [if_neg fourthPadding, bind_eq_ok_iff] at read
      obtain ⟨z, fourth, result⟩ := read
      obtain ⟨zSmall, rfl⟩ := eq_symbol_of_valueAt fourth
      cases result
      rw [encodeBytes_group wSmall xSmall ySmall zSmall, encodeBytes]

/-- Fewer than four bytes are no group, so what is read consists of whole ones. -/
theorem encodeBytes_of_decodeGroups {offset : Nat} {symbols bytes : List UInt8}
    (read : decodeGroups offset symbols = .ok bytes) : encodeBytes bytes = symbols := by
  induction offset, symbols using decodeGroups.induct generalizing bytes with
  | case1 offset =>
      cases read
      rw [encodeBytes]
  | case2 offset a =>
      simp only [decodeGroups, bind_eq_ok_iff] at read
      obtain ⟨_, _, failed⟩ := read
      cases failed
  | case3 offset a b =>
      simp only [decodeGroups, bind_eq_ok_iff] at read
      obtain ⟨_, _, _, _, failed⟩ := read
      cases failed
  | case4 offset a b c =>
      simp only [decodeGroups, bind_eq_ok_iff] at read
      obtain ⟨_, _, _, _, read⟩ := read
      split at read
      · obtain ⟨_, _, failed⟩ := bind_eq_ok_iff.mp read
        cases failed
      · cases read
  | case5 offset a b c d =>
      rw [decodeGroups] at read
      exact encodeBytes_of_decodeLastGroup read
  | case6 offset a b c d rest more ih =>
      rw [decodeGroups_group _ _ _ _ _ more] at read
      obtain ⟨group, first, read⟩ := bind_eq_ok_iff.mp read
      obtain ⟨others, later, result⟩ := bind_eq_ok_iff.mp read
      cases result
      rw [encodeBytes_of_decodeGroup first, ih later]

theorem encodeBytes_of_decodeBytes {symbols bytes : List UInt8}
    (read : decodeBytes symbols = .ok bytes) : encodeBytes bytes = symbols := by
  rw [decodeBytes] at read
  split at read
  · next empty =>
      cases read
      rw [encodeBytes, List.getLast?_eq_none_iff.mp empty]
  · split at read
    · cases read
    · exact encodeBytes_of_decodeGroups read

/-! ## Texts -/

/-- What is written is symbols and then the padding that completes the last group. -/
theorem exists_encodeBytes_eq_append (bytes : List UInt8) :
    ∃ symbols, encodeBytes bytes =
        symbols ++ List.replicate ((3 - bytes.length % 3) % 3) padding ∧
      ∀ byte ∈ symbols, IsSymbol byte := by
  induction bytes using encodeBytes.induct with
  | case1 => exact ⟨[], rfl, by simp⟩
  | case2 a =>
      have aSmall := a.toNat_lt
      refine ⟨[symbol (a.toNat / 4), symbol (a.toNat % 4 * 16)], rfl, ?_⟩
      simp only [List.forall_mem_cons]
      exact ⟨isSymbol_symbol (by omega), isSymbol_symbol (by omega), by simp⟩
  | case3 a b =>
      have aSmall := a.toNat_lt
      have bSmall := b.toNat_lt
      refine ⟨[symbol (a.toNat / 4), symbol (a.toNat % 4 * 16 + b.toNat / 16),
        symbol (b.toNat % 16 * 4)], rfl, ?_⟩
      simp only [List.forall_mem_cons]
      exact ⟨isSymbol_symbol (by omega), isSymbol_symbol (by omega), isSymbol_symbol (by omega),
        by simp⟩
  | case4 a b c rest ih =>
      have aSmall := a.toNat_lt
      have bSmall := b.toNat_lt
      have cSmall := c.toNat_lt
      obtain ⟨symbols, encoded, all⟩ := ih
      have sameRest : (a :: b :: c :: rest).length % 3 = rest.length % 3 := by
        simp only [List.length_cons]
        omega
      refine ⟨symbol (a.toNat / 4) :: symbol (a.toNat % 4 * 16 + b.toNat / 16) ::
        symbol (b.toNat % 16 * 4 + c.toNat / 64) :: symbol (c.toNat % 64) :: symbols, ?_, ?_⟩
      · rw [encodeBytes, encoded, sameRest]
        rfl
      · simp only [List.forall_mem_cons]
        exact ⟨isSymbol_symbol (by omega), isSymbol_symbol (by omega), isSymbol_symbol (by omega),
          isSymbol_symbol (by omega), all⟩

theorem encodeBytes_ascii (bytes : List UInt8) : ∀ byte ∈ encodeBytes bytes, byte < 128 := by
  obtain ⟨symbols, encoded, all⟩ := exists_encodeBytes_eq_append bytes
  intro byte member
  rw [encoded, List.mem_append] at member
  rcases member with inSymbols | inPadding
  · obtain ⟨value, read⟩ := all byte inSymbols
    obtain ⟨small, rfl⟩ := eq_symbol_of_value? read
    exact symbol_lt small
  · rw [List.eq_of_mem_replicate inPadding]
    decide

theorem utf8_encode (bytes : List UInt8) : Utf8.encode (encode bytes) = encodeBytes bytes :=
  Utf8.encode_ofAscii (encodeBytes_ascii bytes)

theorem decode_encode (bytes : List UInt8) : decode (encode bytes) = .ok bytes := by
  rw [decode, utf8_encode, decodeBytes_encodeBytes]

/-- Bytes have one encoding. -/
theorem decode_eq_ok_iff {text : String} {bytes : List UInt8} :
    decode text = .ok bytes ↔ text = encode bytes := by
  constructor
  · intro read
    have symbols := encodeBytes_of_decodeBytes read
    rw [← utf8_encode] at symbols
    exact Utf8.encode_injective symbols.symm
  · rintro rfl
    exact decode_encode bytes

theorem encode_injective {left right : List UInt8} (same : encode left = encode right) :
    left = right := by
  have read := decode_encode left
  rw [same, decode_encode] at read
  exact (Except.ok.inj read).symm

end SignedSession.Base64
