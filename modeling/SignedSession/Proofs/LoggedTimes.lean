import SignedSession.Proofs.Decimal
import SignedSession.Proofs.Gregorian
import SignedSession.Proofs.Reporting

/-!
# The times that the log names

`Civil.read?` reads a date and time back from its text: a year in four digits, or a sign and at least four
for a year outside 0 to 9999, and two digits for every other field, which has to be within its bounds.  The
main statement is that the times and numbers in the log, read so, are the expiries of the tokens that the
lines are about.
-/

set_option autoImplicit false

namespace SignedSession

namespace Civil

/-! ## Reading a date and time -/

/-- The value of decimal digits, one at least. -/
def number? (chars : List Char) : Option Nat :=
  if !chars.isEmpty && chars.all Char.isDigit then some (Nat.ofDigitChars 10 chars 0) else none

/-- A year from 0 to 9999 in four digits, or any other with a sign and at least four digits. -/
def readYear? : List Char → Option Int
  | '+' :: digits => do
      let value ← number? digits
      if 9999 < value then return value else none
  | '-' :: digits => do
      let value ← number? digits
      if 4 ≤ digits.length ∧ 0 < value then return -value else none
  | digits => do
      let value ← number? digits
      if digits.length = 4 then return value else none

/-- What follows the year. -/
def readFields? (year : Int) : List Char → Option Civil
  | ['-', month, month', '-', day, day', ' ', hour, hour', ':', minute, minute', ':',
      second, second', ' ', 'U', 'T', 'C'] => do
      let month ← number? [month, month']
      let day ← number? [day, day']
      let hour ← number? [hour, hour']
      let minute ← number? [minute, minute']
      let second ← number? [second, second']
      let civil : Civil := ⟨year, month, day, hour, minute, second⟩
      if civil.Valid then return civil else none
  | _ => none

/-- The date and time of a text `YYYY-MM-DD HH:MM:SS UTC`, where 19 characters follow the year. -/
def read? (text : String) : Option Civil := do
  let yearLength := text.toList.length - 19
  let year ← readYear? (text.toList.take yearLength)
  readFields? year (text.toList.drop yearLength)

open Toml.Scalar (AllDigits allDigits_toDigits)

variable {width value : Nat}

theorem toList_toString (value : Nat) : (toString value).toList = Nat.toDigits 10 value :=
  Nat.toList_repr

theorem number?_of_allDigits {chars : List Char} (digits : AllDigits chars) (nonempty : chars ≠ []) :
    number? chars = some (Nat.ofDigitChars 10 chars 0) := by
  rw [number?, List.all_eq_true.mpr digits, List.isEmpty_eq_false_iff.mpr nonempty]
  rfl

theorem number?_toString (value : Nat) : number? (toString value).toList = some value := by
  rw [toList_toString, number?_of_allDigits (allDigits_toDigits value) Nat.toDigits_ne_nil,
    Nat.ofDigitChars_ten_toDigits]

theorem toList_padded (width value : Nat) :
    (padded width value).toList =
      List.replicate (width - (Nat.toDigits 10 value).length) '0' ++ Nat.toDigits 10 value := by
  rw [padded, String.toList_append, String.toList_ofList, ← String.length_toList, toList_toString]

theorem allDigits_padded (width value : Nat) : AllDigits (padded width value).toList := by
  rw [toList_padded]
  intro c member
  obtain zero | digit := List.mem_append.mp member
  · rw [List.eq_of_mem_replicate zero]
    rfl
  · exact allDigits_toDigits value c digit

theorem number?_padded (width value : Nat) : number? (padded width value).toList = some value := by
  have nonempty : (padded width value).toList ≠ [] := by
    rw [toList_padded]
    exact List.append_ne_nil_of_right_ne_nil _ Nat.toDigits_ne_nil
  rw [number?_of_allDigits (allDigits_padded width value) nonempty, toList_padded,
    Nat.ofDigitChars_append, Nat.ofDigitChars_replicate_zero, Nat.mul_zero,
    Nat.ofDigitChars_ten_toDigits]

theorem length_padded (width value : Nat) : width ≤ (padded width value).toList.length := by
  rw [toList_padded, List.length_append, List.length_replicate]
  omega

theorem length_padded_of_lt (positive : 0 < width) (small : value < 10 ^ width) :
    (padded width value).toList.length = width := by
  have short := (Nat.length_toDigits_le_iff (by decide) positive).mpr small
  rw [toList_padded, List.length_append, List.length_replicate]
  omega

theorem exists_two_digits (small : value < 100) :
    ∃ tens ones, (padded 2 value).toList = [tens, ones] ∧ number? [tens, ones] = some value := by
  obtain ⟨tens, ones, digits⟩ := List.length_eq_two.mp (length_padded_of_lt (by decide) small)
  refine ⟨tens, ones, digits, ?_⟩
  rw [← digits]
  exact number?_padded 2 value

theorem readYear?_yearText (year : Int) : readYear? (yearText year).toList = some year := by
  by_cases ordinary : 0 ≤ year ∧ year ≤ 9999
  · have digits := allDigits_padded 4 year.toNat
    have four : (padded 4 year.toNat).toList.length = 4 :=
      length_padded_of_lt (by decide) (by omega)
    rw [yearText, if_pos ordinary, readYear?.eq_3, number?_padded, Option.bind_eq_bind,
      Option.bind_some, if_pos four]
    · exact congrArg some (Int.toNat_of_nonneg ordinary.1)
    · intro rest plus
      rw [plus] at digits
      exact digits.not_mem rfl List.mem_cons_self
    · intro rest minus
      rw [minus] at digits
      exact digits.not_mem rfl List.mem_cons_self
  · rw [yearText, if_neg ordinary, String.toList_append]
    by_cases negative : year < 0
    · have named : 4 ≤ (padded 4 year.natAbs).toList.length ∧ 0 < year.natAbs :=
        ⟨length_padded 4 _, by omega⟩
      rw [if_pos negative]
      change readYear? ('-' :: (padded 4 year.natAbs).toList) = _
      rw [readYear?, number?_padded, Option.bind_eq_bind, Option.bind_some, if_pos named]
      exact congrArg some (by omega)
    · have named : 9999 < year.natAbs := by omega
      rw [if_neg negative]
      change readYear? ('+' :: (padded 4 year.natAbs).toList) = _
      rw [readYear?, number?_padded, Option.bind_eq_bind, Option.bind_some, if_pos named]
      exact congrArg some (by omega)

theorem read?_text {civil : Civil} (valid : civil.Valid) : read? civil.text = some civil := by
  obtain ⟨⟨-, month⟩, ⟨-, day⟩, hour, minute, second⟩ := id valid
  have days : daysInMonth civil.year civil.month ≤ 31 := by
    unfold daysInMonth
    split <;> split <;> omega
  obtain ⟨m, m', monthText, readMonth⟩ := exists_two_digits (show civil.month < 100 by omega)
  obtain ⟨d, d', dayText, readDay⟩ := exists_two_digits (show civil.day < 100 by omega)
  obtain ⟨h, h', hourText, readHour⟩ := exists_two_digits (show civil.hour < 100 by omega)
  obtain ⟨n, n', minuteText, readMinute⟩ := exists_two_digits (show civil.minute < 100 by omega)
  obtain ⟨s, s', secondText, readSecond⟩ := exists_two_digits (show civil.second < 100 by omega)
  -- every field after the year has two digits, so the year is what is left in front of 19 characters
  have chars : civil.text.toList = (yearText civil.year).toList ++
      ['-', m, m', '-', d, d', ' ', h, h', ':', n, n', ':', s, s', ' ', 'U', 'T', 'C'] := by
    simp [text, monthText, dayText, hourText, minuteText, secondText]
  have yearLength : civil.text.toList.length - 19 = (yearText civil.year).toList.length := by
    rw [chars, List.length_append]
    rfl
  rw [read?, yearLength, chars, List.take_left, List.drop_left, readYear?_yearText, Option.bind_eq_bind,
    Option.bind_some, readFields?]
  simp only [readMonth, readDay, readHour, readMinute, readSecond, Option.bind_eq_bind,
    Option.bind_some]
  exact if_pos valid

example : read? "+10000-01-01 00:00:00 UTC" = some ⟨10000, 1, 1, 0, 0, 0⟩ := by decide

/-- Whether a text is that of a date and time so many seconds after the beginning of 1970. -/
def Names (time : String) (second : Nat) : Prop :=
  ∃ civil, read? time = some civil ∧ civil.Valid ∧ 1970 ≤ civil.year ∧ civil.elapsed = second

theorem names_text_ofUnix (second : Nat) : Names (ofUnix second).text second :=
  ⟨ofUnix second, read?_text (valid_ofUnix second), valid_ofUnix second,
    year_ofUnix (Int.natCast_nonneg second), elapsed_ofUnix second⟩

theorem Names.unique {time : String} {second other : Nat} (names : Names time second)
    (namesOther : Names time other) : second = other := by
  obtain ⟨civil, read, -, -, rfl⟩ := names
  obtain ⟨civil', read', -, -, rfl⟩ := namesOther
  rw [Option.some.inj (read.symm.trans read')]

end Civil

namespace Policy

/-! ## What a line of the log names -/

theorem lines_of_expired {policy : Policy} {text : String} {key : SecretKey} {now : Instant}
    (expired : (policy.verify text key now).result = .error .tokenExpired) :
    ∃ token, Token.decode text = .ok token ∧ token.expiry.toNat ≤ 8210266876799 ∧
      (policy.verify text key now).lines =
        ["DEBUG Rejected session token that expired at " ++
          (Civil.ofUnix token.expiry.toNat).text] := by
  obtain ⟨error, other, refused⟩ | ⟨token, decoded, told, -⟩ := refused_or_judged text key
  · rw [refused policy now] at expired
    obtain rfl | rfl := other <;> cases expired
  · refine ⟨token, decoded, told, ?_⟩
    rw [Logged.lines, verify_events, Logged.outcome, expired, Token.shownExpiry?, decoded]
    exact congrArg (fun line => [line]) (Event.line_tokenExpired token.expiry.toNat)

theorem verify_of_signed_late (policy : Policy) (key : SecretKey) (expiry : UInt64)
    (usernameHash : UsernameHash) (now : Instant) (told : expiry.toNat ≤ 8210266876799)
    (late : now.IsAfter expiry.toNat 0) :
    (policy.verify (Token.signed key expiry usernameHash).encode key now).result =
      .error .tokenExpired := by
  rw [verify_result_of_decoded (Token.decode_encode _), if_pos (Token.authentic_signed _ _ _), judge]
  exact (dif_pos told).trans (if_pos late)

/-- The time in the log of an expired token is the token's expiry, and so is the number in the log of an
issued one. -/
theorem log_names_expiry :
    (∀ (policy : Policy) (text : String) (key : SecretKey) (now : Instant),
      (policy.verify text key now).result = .error .tokenExpired →
      ∃ (token : Token) (time : String),
        Token.decode text = .ok token ∧ token.expiry.toNat ≤ 8210266876799 ∧
        (policy.verify text key now).lines =
          ["DEBUG Rejected session token that expired at " ++ time] ∧
        Civil.Names time token.expiry.toNat) ∧
    (∀ (policy : Policy) (username text : String) (key : SecretKey) (now : Instant),
      (policy.issue username key now).result = .ok text →
      ∃ (token : Token) (digits : String),
        Token.decode text = .ok token ∧
        (policy.issue username key now).lines =
          ["TRACE Issued session token expiring at " ++ digits] ∧
        Civil.number? digits.toList = some token.expiry.toNat) ∧
    ∀ (policy policy' : Policy) (text text' : String) (key key' : SecretKey) (now now' : Instant)
      (token token' : Token),
      (policy.verify text key now).result = .error .tokenExpired →
      (policy'.verify text' key' now').result = .error .tokenExpired →
      Token.decode text = .ok token → Token.decode text' = .ok token' →
      token.expiry ≠ token'.expiry →
      (policy.verify text key now).lines ≠ (policy'.verify text' key' now').lines := by
  refine ⟨?_, ?_, ?_⟩
  · intro policy text key now expired
    obtain ⟨token, decoded, told, lines⟩ := lines_of_expired expired
    exact ⟨token, _, decoded, told, lines, Civil.names_text_ofUnix token.expiry.toNat⟩
  · intro policy username text key now issued
    obtain ⟨can, rfl⟩ := issue_eq_ok_iff.mp issued
    refine ⟨policy.issuedToken username key now, _, Token.decode_encode _, ?_,
      Civil.number?_toString _⟩
    rw [issue_lines, if_pos can]
  · intro policy policy' text text' key key' now now' token token' expired expired' decoded decoded'
      different same
    obtain ⟨seen, decodedSeen, -, lines⟩ := lines_of_expired expired
    obtain ⟨seen', decodedSeen', -, lines'⟩ := lines_of_expired expired'
    obtain rfl : seen = token := Except.ok.inj (decodedSeen.symm.trans decoded)
    obtain rfl : seen' = token' := Except.ok.inj (decodedSeen'.symm.trans decoded')
    rw [lines, lines', List.singleton_inj, String.append_right_inj] at same
    have names := Civil.names_text_ofUnix seen.expiry.toNat
    rw [same] at names
    exact different (UInt64.toNat_inj.mp (names.unique (Civil.names_text_ofUnix seen'.expiry.toNat)))

/-- Two tokens, one that expires with the year 9999 and one a second later, looked at a second after that;
and a token issued in a leap second inside a minute. -/
theorem log_names_expiry_at_year_10000 :
    ∃ later text text' last first issued digits,
      later = Instant.beginning 253402300801 (by decide) ∧
      text = (Token.signed (SecretKey.uniform 90) 253402300799
        (UsernameHash.keyed "admin" (SecretKey.uniform 90))).encode ∧
      text' = (Token.signed (SecretKey.uniform 7) 253402300800
        (UsernameHash.keyed "" (SecretKey.uniform 7))).encode ∧
      (standard.verify text (SecretKey.uniform 90) later).lines =
        ["DEBUG Rejected session token that expired at " ++ last] ∧
      Civil.Names last 253402300799 ∧
      (shortest.verify text' (SecretKey.uniform 7) later).lines =
        ["DEBUG Rejected session token that expired at " ++ first] ∧
      Civil.Names first 253402300800 ∧
      (standard.verify text (SecretKey.uniform 90) later).lines ≠
        (shortest.verify text' (SecretKey.uniform 7) later).lines ∧
      (shortest.issue "" (SecretKey.uniform 90) Instant.innerLeapSecond).result = .ok issued ∧
      (shortest.issue "" (SecretKey.uniform 90) Instant.innerLeapSecond).lines =
        ["TRACE Issued session token expiring at " ++ digits] ∧
      Civil.number? digits.toList = some 1483228566 := by
  have can : shortest.CanIssue Instant.innerLeapSecond := by decide
  let later := Instant.beginning 253402300801 (by decide)
  obtain ⟨ofExpired, ofIssued, different⟩ := log_names_expiry
  have expired := verify_of_signed_late standard (SecretKey.uniform 90) 253402300799
    (UsernameHash.keyed "admin" (SecretKey.uniform 90)) later (by decide) (by decide)
  have expired' := verify_of_signed_late shortest (SecretKey.uniform 7) 253402300800
    (UsernameHash.keyed "" (SecretKey.uniform 7)) later (by decide) (by decide)
  obtain ⟨token, last, decoded, -, lines, names⟩ := ofExpired _ _ _ _ expired
  obtain ⟨token', first, decoded', -, lines', names'⟩ := ofExpired _ _ _ _ expired'
  rw [Token.decode_encode] at decoded decoded'
  cases decoded
  cases decoded'
  have issued := issue_of_canIssue can "" (SecretKey.uniform 90)
  obtain ⟨token'', digits, decoded'', issuedLines, number⟩ := ofIssued _ _ _ _ _ issued
  rw [Token.decode_encode] at decoded''
  cases decoded''
  refine ⟨later, _, _, last, first, _, digits, rfl, rfl, rfl, lines, names, lines', names', ?_,
    issued, issuedLines, number⟩
  exact different _ _ _ _ _ _ _ _ _ _ expired expired' (Token.decode_encode _) (Token.decode_encode _)
    (by decide)

end Policy
end SignedSession
