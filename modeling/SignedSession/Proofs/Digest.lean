import SignedSession.Hash.Sha256

/-!
# SHA-256 by its recurrence

The hash carries a window of sixteen words from round to round and cuts the message down from the front.
Here it is stated without either: a word of the schedule is given by its number, and a block by its place
in the message.  The window at a round is the sixteen words from that round on, which each round preserves.
A message is completed to whole blocks, with no more zeros than that takes.
-/

set_option autoImplicit false

namespace SignedSession

namespace Sha256

variable {bytes block : List UInt8}

/-! ## Words and blocks by their number -/

def wordAt (bytes : List UInt8) (number : Nat) : UInt32 :=
  UInt32.ofNat (BigEndian.ofBytes ((bytes.drop (4 * number)).take 4))

def blockAt (bytes : List UInt8) (number : Nat) : List UInt8 :=
  (bytes.drop (64 * number)).take 64

theorem words_eq {count : Nat} (length : bytes.length = 4 * count) :
    words bytes = (List.range count).map (wordAt bytes) := by
  induction count generalizing bytes with
  | zero =>
      rw [List.eq_nil_of_length_eq_zero length]
      rfl
  | succ count hypothesis =>
      obtain ⟨a, b, c, d, rest, rfl⟩ : ∃ a b c d rest, bytes = a :: b :: c :: d :: rest := by
        match bytes, length with
        | a :: b :: c :: d :: rest, _ => exact ⟨a, b, c, d, rest, rfl⟩
      rw [words, hypothesis (by simpa [Nat.mul_succ] using length), List.range_succ_eq_map,
        List.map_cons, List.map_map]
      rfl

theorem blocks_eq (count : Nat) (bytes : List UInt8) :
    blocks count bytes = (List.range count).map (blockAt bytes) := by
  induction count generalizing bytes with
  | zero => rfl
  | succ count hypothesis =>
      rw [blocks, hypothesis, List.range_succ_eq_map, List.map_cons, List.map_map]
      refine congrArg _ (List.map_congr_left ?_)
      intro number _
      rw [Function.comp_apply, blockAt, blockAt, List.drop_drop, Nat.mul_succ, Nat.add_comm]

/-! ## The schedule -/

/-- The words that the rounds consume: those of the block, then each from four before it. -/
def scheduled (block : List UInt8) (number : Nat) : UInt32 :=
  if number < 16 then wordAt block number
  else
    mixLate (scheduled block (number - 2)) + scheduled block (number - 7) +
      mixEarly (scheduled block (number - 15)) + scheduled block (number - 16)

/-- The state after the first so many rounds. -/
def afterRounds (block : List UInt8) (state : State) : (count : Nat) → State
  | 0 => state
  | count + 1 =>
      (afterRounds block state count).round (roundConstants.getD count 0) (scheduled block count)

def window (block : List UInt8) (start : Nat) : List UInt32 :=
  (List.range 16).map fun place => scheduled block (start + place)

theorem words_eq_window (length : block.length = 64) : words block = window block 0 := by
  rw [words_eq (show block.length = 4 * 16 from length), window]
  refine List.map_congr_left ?_
  intro number small
  rw [Nat.zero_add, scheduled, if_pos (List.mem_range.mp small)]

theorem window_eq_cons (start : Nat) :
    window block start =
      scheduled block start :: (List.range 15).map fun place => scheduled block (start + 1 + place) := by
  rw [window, List.range_succ_eq_map, List.map_cons, List.map_map]
  refine congrArg _ (List.map_congr_left ?_)
  intro place _
  rw [Function.comp_apply, Nat.succ_eq_add_one, Nat.add_comm place 1, Nat.add_assoc]

theorem window_eq_concat (start : Nat) :
    window block start =
      ((List.range 15).map fun place => scheduled block (start + place)) ++
        [scheduled block (start + 15)] := by
  rw [window, List.range_succ, List.map_append, List.map_singleton]

theorem step_window (state : State) (start : Nat) (constant : UInt32) :
    step (state, window block start) constant =
      (state.round constant (scheduled block start), window block (start + 1)) := by
  have following : followingWord (window block start) = scheduled block (start + 1 + 15) := by
    rw [scheduled, if_neg (by omega)]
    rfl
  rw [step, following, window_eq_cons, window_eq_concat (start + 1)]
  rfl

theorem foldl_step_window (state : State) {count : Nat} (within : count ≤ 64) :
    (roundConstants.take count).foldl step (state, window block 0) =
      (afterRounds block state count, window block count) := by
  -- on the number of rounds done; the window is always the one of the next round
  induction count with
  | zero => rfl
  | succ count hypothesis =>
      have here : count < roundConstants.length := within
      rw [List.take_succ_eq_append_getElem here, List.foldl_append,
        hypothesis (Nat.le_of_succ_le within), List.foldl_cons, List.foldl_nil, step_window,
        afterRounds, List.getD_eq_getElem?_getD, List.getElem?_eq_getElem here,
        Option.getD_some]

theorem compress_eq (state : State) (length : block.length = 64) :
    compress state block = state.add (afterRounds block state 64) := by
  have whole : roundConstants.take 64 = roundConstants := rfl
  rw [compress, words_eq_window length, ← whole, foldl_step_window state (Nat.le_refl 64)]

/-! ## The hash -/

/-- The state after the first so many blocks of a completed message. -/
def afterBlocks (padded : List UInt8) : (count : Nat) → State
  | 0 => initial
  | count + 1 =>
      (afterBlocks padded count).add (afterRounds (blockAt padded count) (afterBlocks padded count) 64)

/-- The hash of a message by the recurrence of its schedule. -/
def digest (message : List UInt8) : Bytes 32 :=
  (afterBlocks (pad message) ((pad message).length / 64)).toBytes

/-- A message is completed by the byte `0x80`, zeros and its length in bits, with the fewest zeros that
complete whole blocks. -/
theorem pad_fewest (message : List UInt8) :
    ∃ zeros,
      pad message =
        message ++ 0x80 :: List.replicate zeros 0 ++ BigEndian.toBytes 8 (8 * message.length) ∧
      64 ∣ message.length + 1 + zeros + 8 ∧
      ∀ fewer < zeros, ¬ 64 ∣ message.length + 1 + fewer + 8 := by
  refine ⟨zeroCount message.length, rfl, ?_, ?_⟩
  · unfold zeroCount
    omega
  · intro fewer less
    unfold zeroCount at less
    omega

theorem length_blockAt {count number : Nat} (length : bytes.length = 64 * count)
    (before : number < count) : (blockAt bytes number).length = 64 := by
  rw [blockAt, List.length_take, List.length_drop]
  omega

theorem foldl_compress_eq {total count : Nat} (length : bytes.length = 64 * total)
    (within : count ≤ total) :
    ((List.range count).map (blockAt bytes)).foldl compress initial = afterBlocks bytes count := by
  induction count with
  | zero => rfl
  | succ count hypothesis =>
      rw [List.range_succ, List.map_append, List.foldl_append,
        hypothesis (Nat.le_of_succ_le within), List.map_singleton, List.foldl_cons, List.foldl_nil,
        compress_eq _ (length_blockAt length within), afterBlocks]

end Sha256

theorem sha256_eq_digest (message : List UInt8) : sha256 message = Sha256.digest message := by
  obtain ⟨zeros, completed, blocks, -⟩ := Sha256.pad_fewest message
  have length : (Sha256.pad message).length = message.length + 1 + zeros + 8 := by
    rw [completed]
    simp only [List.length_append, List.length_cons, List.length_replicate, BigEndian.length_toBytes]
    omega
  have whole : (Sha256.pad message).length = 64 * ((Sha256.pad message).length / 64) := by
    rw [length]
    exact (Nat.mul_div_cancel' blocks).symm
  rw [sha256, Sha256.blocks_eq, Sha256.foldl_compress_eq whole (Nat.le_refl _), Sha256.digest]

example : (Sha256.digest [0x61, 0x62, 0x63]).toList =
    [0xba, 0x78, 0x16, 0xbf, 0x8f, 0x01, 0xcf, 0xea, 0x41, 0x41, 0x40, 0xde, 0x5d, 0xae, 0x22, 0x23,
      0xb0, 0x03, 0x61, 0xa3, 0x96, 0x17, 0x7a, 0x9c, 0xb4, 0x10, 0xff, 0x61, 0xf2, 0x00, 0x15, 0xad] := by
  rw [← sha256_eq_digest]
  decide +kernel

end SignedSession
