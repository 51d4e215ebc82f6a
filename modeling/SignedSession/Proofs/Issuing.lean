import SignedSession.Proofs.Verification

/-!
# What issuing gives

A token is issued exactly when its expiry is an instant from 1970 on.  Its text then depends on the
secret, the username and that expiry alone.  A token issued in place of one that is due outlasts it by
at least what the valid period exceeds the renewal window, and is fresh itself.
-/

set_option autoImplicit false

namespace SignedSession.Policy

/-! ## When issuing succeeds -/

theorem issue_congr {policy policy' : Policy} (same : policy.validPeriod = policy'.validPeriod)
    (username : String) (key : SecretKey) (now : Instant) :
    policy.issue username key now = policy'.issue username key now := by
  rw [issue, issue, expiry?, expiry?, same]

theorem encode_issuedToken_eq_iff {policy policy' : Policy} {now now' : Instant}
    (can : policy.CanIssue now) (can' : policy'.CanIssue now') (username : String)
    (key : SecretKey) :
    (policy.issuedToken username key now).encode = (policy'.issuedToken username key now').encode ↔
      policy.expiryAt now = policy'.expiryAt now' := by
  constructor
  · intro same
    have tokens := Token.encode_injective same
    rw [← expiry_issuedToken can username key, ← expiry_issuedToken can' username key, tokens]
  · intro same
    rw [issuedToken, issuedToken, same]

/-- Issuing fails for one reason only, that the expiry is out of range, and this does not reject a
token.  Otherwise it gives the text of the token that has this expiry, the username's hash and the code
of both.  The renewal window has no part in it, and texts issued under one secret to one user are the
same exactly when their expiries are. -/
theorem issue_outcomes (username : String) (key : SecretKey) :
    (∀ (policy : Policy) (now : Instant),
      if 0 ≤ now.seconds + policy.validPeriod.seconds ∧
          now.seconds + policy.validPeriod.seconds ≤ 8210266876799 then
        ∃ token : Token, (policy.issue username key now).result = .ok token.encode ∧
          (token.expiry.toNat : Int) = now.seconds + policy.validPeriod.seconds ∧
          UsernameHash.ofUsername username key = .ok token.usernameHash ∧
          token.signature = hmac (key.subKey .sessionSignature).toList token.payload.toList
      else (policy.issue username key now).result = .error .expiryOutOfRange) ∧
    Error.expiryOutOfRange.isTokenRejection = false ∧
    (∀ (policy policy' : Policy) (now : Instant), policy.validPeriod = policy'.validPeriod →
      policy.issue username key now = policy'.issue username key now) ∧
    ∀ (policy policy' : Policy) (now now' : Instant) (text text' : String),
      (policy.issue username key now).result = .ok text →
      (policy'.issue username key now').result = .ok text' →
      (text = text' ↔
        now.seconds + policy.validPeriod.seconds = now'.seconds + policy'.validPeriod.seconds) := by
  refine ⟨?_, rfl, ?_, ?_⟩
  · intro policy now
    split
    · next can =>
        exact ⟨policy.issuedToken username key now, issue_of_canIssue can username key,
          expiry_issuedToken can username key, UsernameHash.ofUsername_eq username key, rfl⟩
    · next cannot =>
        rw [issue_result]
        exact if_neg cannot
  · intro policy policy' now same
    exact issue_congr same username key now
  · intro policy policy' now now' text text' issued issued'
    obtain ⟨can, rfl⟩ := issue_eq_ok_iff.mp issued
    obtain ⟨can', rfl⟩ := issue_eq_ok_iff.mp issued'
    exact encode_issuedToken_eq_iff can can' username key

/-- Two tokens issued before 1970 under policies of different lengths, one of them at the end of a leap
second inside a minute, expire together in its first second, so they are one text.  A second earlier the
shorter policy issues nothing. -/
theorem issue_outcomes_before_1970 :
    ∃ text,
      (shortest.issue "admin" (SecretKey.uniform 90)
        ⟨-2, 1999999999, by decide, by decide⟩).result = .ok text ∧
      (standard.issue "admin" (SecretKey.uniform 90)
        (Instant.beginning (-1209600) (by decide))).result = .ok text ∧
      (shortest.issue "admin" (SecretKey.uniform 90) (Instant.beginning (-3) (by decide))).result =
        .error .expiryOutOfRange := by
  obtain ⟨outcome, -, -, same⟩ := issue_outcomes "admin" (SecretKey.uniform 90)
  have short := outcome shortest ⟨-2, 1999999999, by decide, by decide⟩
  have long := outcome standard (Instant.beginning (-1209600) (by decide))
  have early := outcome shortest (Instant.beginning (-3) (by decide))
  rw [if_pos (by decide)] at short long
  rw [if_neg (by decide)] at early
  obtain ⟨shortToken, shortIssued, -⟩ := short
  obtain ⟨longToken, longIssued, -⟩ := long
  have texts := (same _ _ _ _ _ _ shortIssued longIssued).mpr (by decide)
  refine ⟨shortToken.encode, shortIssued, ?_, early⟩
  rw [longIssued, texts]

/-! ## Renewal -/

theorem exists_judge_iff {token : Token} (told : token.expiry.toNat ≤ 8210266876799)
    (policy : Policy) (now : Instant) :
    (∃ session, policy.judge token now = .ok session) ↔ ¬ now.IsAfter token.expiry.toNat 0 := by
  constructor
  · rintro ⟨session, accepted⟩
    obtain ⟨-, current, -⟩ := judge_eq_ok_iff.mp accepted
    exact current
  · intro current
    exact ⟨_, judge_eq_ok_iff.mpr ⟨told, current, rfl⟩⟩

theorem isAfter_window_of_judge {policy : Policy} {token : Token} {now : Instant}
    {session : Session} (accepted : policy.judge token now = .ok session)
    (due : session.dueForRenewal = true) :
    now.IsAfter (token.expiry.toNat - policy.renewalWindow.seconds) 0 := by
  obtain ⟨_, -, rfl⟩ := judge_eq_ok_iff.mp accepted
  exact of_decide_eq_true due

/-- Within the window of a token, what is issued expires later by what the valid period exceeds the
window.  The instant counts in full seconds on both sides. -/
theorem expiryAt_of_isAfter_window {policy : Policy} {expiry : Int} {now : Instant}
    (due : now.IsAfter (expiry - policy.renewalWindow.seconds) 0) :
    expiry + (policy.validPeriod.seconds - policy.renewalWindow.seconds) ≤ policy.expiryAt now := by
  unfold expiryAt
  unfold Instant.IsAfter at due
  omega

/-- A token that replaces one that is due expires later by at least what the valid period exceeds the
renewal window, which is a second or more.  It is fresh at once, and accepted whenever the one it
replaces is. -/
theorem renewal_extends (policy : Policy) (text renewed username : String) (key : SecretKey)
    (now : Instant) (session : Session)
    (accepted : (policy.verify text key now).result = .ok session)
    (due : session.dueForRenewal = true)
    (issued : (policy.issue username key now).result = .ok renewed) :
    ∃ old new : Token, Token.decode text = .ok old ∧ Token.decode renewed = .ok new ∧
      (old.expiry.toNat : Int) + (policy.validPeriod.seconds - policy.renewalWindow.seconds) ≤
        new.expiry.toNat ∧
      old.expiry.toNat + 1 ≤ new.expiry.toNat ∧
      (∃ found, (policy.verify renewed key now).result = .ok found ∧ found.dueForRenewal = false) ∧
      ∀ (verifier : Policy) (time : Instant),
        (∃ found, (verifier.verify text key time).result = .ok found) →
        ∃ found, (verifier.verify renewed key time).result = .ok found := by
  obtain ⟨can, rfl⟩ := issue_eq_ok_iff.mp issued
  have shorter := policy.window_seconds_lt
  have positive := policy.window_seconds_pos
  have expiry := expiry_issuedToken can username key
  rcases refused_or_judged text key with ⟨error, -, always⟩ | ⟨old, decoded, told, judged⟩
  · rw [always] at accepted
    cases accepted
  · rw [judged] at accepted
    -- That the old token is due bounds its expiry by the present instant, and so by the new expiry.
    have gain := expiryAt_of_isAfter_window (isAfter_window_of_judge accepted due)
    rw [← expiry] at gain
    refine ⟨old, _, decoded, Token.decode_encode _, gain, by omega, ?_, ?_⟩
    · have fresh := policy.not_isAfter_renewal now
      have current : ¬ now.IsAfter (policy.expiryAt now) 0 := by
        intro expired
        exact fresh (expired.mono now.le_refl (by omega))
      rw [verify_result_of_issued, judge_issuedToken can, if_neg current]
      exact ⟨_, rfl, decide_eq_false fresh⟩
    · intro verifier time
      have toldNew := told_issuedToken can username key
      rw [judged, verify_result_of_issued, exists_judge_iff told, exists_judge_iff toldNew]
      intro lasts expired
      exact lasts (expired.mono time.le_refl (by omega))

/-- A token of the shortest policy that was issued in a leap second and is replaced a nanosecond after
its window began. -/
theorem renewal_extends_after_leap_second :
    ∃ text renewed session,
      (shortest.verify text (SecretKey.uniform 90) Instant.newYear).result = .ok session ∧
      session.dueForRenewal = true ∧
      (shortest.issue "admin" (SecretKey.uniform 90) Instant.newYear).result = .ok renewed ∧
      ∃ old new : Token, Token.decode text = .ok old ∧ Token.decode renewed = .ok new ∧
        old.expiry.toNat + 1 ≤ new.expiry.toNat := by
  have can : shortest.CanIssue Instant.leapSecond := by decide
  have canAgain : shortest.CanIssue Instant.newYear := by decide
  have inWindow : Instant.newYear.IsAfter
      (shortest.expiryAt Instant.leapSecond - shortest.renewalWindow.seconds) 0 := by decide
  have accepted := verify_result_of_issued shortest shortest "admin" (SecretKey.uniform 90)
    Instant.leapSecond Instant.newYear
  rw [judge_issuedToken can, if_neg (by decide)] at accepted
  have due := decide_eq_true inWindow
  have issued := issue_of_canIssue canAgain "admin" (SecretKey.uniform 90)
  obtain ⟨old, new, decoded, decodedNew, -, later, -⟩ :=
    renewal_extends shortest _ _ "admin" (SecretKey.uniform 90) _ _ accepted due issued
  exact ⟨_, _, _, accepted, due, issued, old, new, decoded, decodedNew, later⟩

end SignedSession.Policy
