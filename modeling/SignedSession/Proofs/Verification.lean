import SignedSession.Proofs.Lifetime
import SignedSession.Proofs.SubKey
import SignedSession.Proofs.Wire

/-!
# What checking a token finds

The check is opened once, in `verify_of_refused` and `verify_of_decoded`: a text that is no token and
a token that the secret did not sign are refused whatever the policy and the time, and an authentic
token is judged by its expiry alone.  `refused_or_judged` puts the two together.  Issuing is opened in
`issue_eq`.  The main statements are the table of all outcomes in their order, and the agreement of
issuing with checking under any two policies.
-/

set_option autoImplicit false

namespace SignedSession

namespace Token

def signed (key : SecretKey) (expiry : UInt64) (usernameHash : UsernameHash) : Token where
  expiry := expiry
  usernameHash := usernameHash
  signature := signatureOf key (payloadOf expiry usernameHash)

theorem authentic_signed (key : SecretKey) (expiry : UInt64) (usernameHash : UsernameHash) :
    (signed key expiry usernameHash).Authentic key := rfl

theorem inRange_expiry {expiry : UInt64} (told : expiry.toNat ≤ 8210266876799) :
    Instant.InRange expiry.toNat := by
  unfold Instant.InRange
  omega

theorem expiresAt?_eq_some {token : Token} (told : token.expiry.toNat ≤ 8210266876799) :
    token.expiresAt? = some (Instant.beginning token.expiry.toNat (inRange_expiry told)) :=
  Instant.ofSeconds?_eq_some _

theorem expiresAt?_eq_none {token : Token} (late : ¬ token.expiry.toNat ≤ 8210266876799) :
    token.expiresAt? = none := by
  refine Instant.ofSeconds?_eq_none_iff.mpr ?_
  intro inRange
  have upper := inRange.2
  omega

/-- What the log is told when an authentic token is judged at an instant. -/
def expiredEvents (token : Token) (now : Instant) : List Event :=
  if token.expiry.toNat ≤ 8210266876799 ∧ now.IsAfter token.expiry.toNat 0 then
    [.tokenExpired token.expiry.toNat]
  else []

end Token

namespace Policy

/-- What an authentic token comes to at an instant. -/
def judge (policy : Policy) (token : Token) (now : Instant) : Except Error Session :=
  if told : token.expiry.toNat ≤ 8210266876799 then
    if now.IsAfter token.expiry.toNat 0 then .error .tokenExpired
    else
      .ok
        { usernameHash := token.usernameHash
          dueForRenewal := now.IsAfter (token.expiry.toNat - policy.renewalWindow.seconds) 0
          expiresAt := Instant.beginning token.expiry.toNat (Token.inRange_expiry told) }
  else .error .malformedToken

theorem judge_eq_ok_iff {policy : Policy} {token : Token} {now : Instant} {session : Session} :
    policy.judge token now = .ok session ↔
      ∃ told : token.expiry.toNat ≤ 8210266876799, ¬ now.IsAfter token.expiry.toNat 0 ∧
        session =
          { usernameHash := token.usernameHash
            dueForRenewal := now.IsAfter (token.expiry.toNat - policy.renewalWindow.seconds) 0
            expiresAt := Instant.beginning token.expiry.toNat (Token.inRange_expiry told) } := by
  constructor
  · intro accepted
    unfold judge at accepted
    split at accepted
    · next told =>
        split at accepted
        · cases accepted
        · next current => exact ⟨told, current, (Except.ok.inj accepted).symm⟩
    · cases accepted
  · rintro ⟨told, current, rfl⟩
    rw [judge, dif_pos told, if_neg current]

theorem verify_of_refused {text : String} {error : Error} (refused : Token.decode text = .error error)
    (policy : Policy) (key : SecretKey) (now : Instant) :
    policy.verify text key now = .fail .malformedToken .malformedToken := by
  rw [verify, refused, Token.eq_malformedToken_of_decode refused]
  rfl

theorem verify_of_decoded {text : String} {token : Token} (decoded : Token.decode text = .ok token)
    (policy : Policy) (key : SecretKey) (now : Instant) :
    policy.verify text key now =
      if token.Authentic key then ⟨policy.judge token now, token.expiredEvents now⟩
      else .fail .invalidSignature .invalidSignature := by
  rw [verify, decoded]
  change (Logged.quiet (.ok token) >>= _) = _
  simp only [Logged.ok_bind, Token.checkSignature_eq]
  by_cases authentic : token.Authentic key
  · rw [if_pos authentic, if_pos authentic, Logged.ok_bind, judge, Token.expiredEvents]
    by_cases told : token.expiry.toNat ≤ 8210266876799
    · rw [dif_pos told, Token.expiresAt?_eq_some told, Option.elim_some, Logged.ok_bind]
      simp only [Instant.beginning_lt_iff, isDue_beginning, told, true_and]
      split <;> rfl
    · rw [dif_neg told, if_neg (fun late => told late.1), Token.expiresAt?_eq_none told]
      rfl
  · rw [if_neg authentic, if_neg authentic]
    rfl

theorem verify_result_of_refused {text : String} {error : Error}
    (refused : Token.decode text = .error error) (policy : Policy) (key : SecretKey)
    (now : Instant) : (policy.verify text key now).result = .error .malformedToken := by
  rw [verify_of_refused refused]
  rfl

theorem verify_result_of_decoded {text : String} {token : Token}
    (decoded : Token.decode text = .ok token) (policy : Policy) (key : SecretKey) (now : Instant) :
    (policy.verify text key now).result =
      if token.Authentic key then policy.judge token now else .error .invalidSignature := by
  rw [verify_of_decoded decoded, apply_ite Logged.result]
  rfl

/-- A text is refused for good, by every policy at every instant alike, or it is that of an authentic
token, whose expiry decides. -/
theorem refused_or_judged (text : String) (key : SecretKey) :
    (∃ error, (error = .malformedToken ∨ error = .invalidSignature) ∧
      ∀ (policy : Policy) (now : Instant), (policy.verify text key now).result = .error error) ∨
    ∃ token, Token.decode text = .ok token ∧ token.expiry.toNat ≤ 8210266876799 ∧
      ∀ (policy : Policy) (now : Instant),
        (policy.verify text key now).result = policy.judge token now := by
  cases decoded : Token.decode text with
  | error error =>
      refine .inl ⟨.malformedToken, .inl rfl, ?_⟩
      intro policy now
      exact verify_result_of_refused decoded policy key now
  | ok token =>
      by_cases authentic : token.Authentic key
      · have judged : ∀ (policy : Policy) (now : Instant),
            (policy.verify text key now).result = policy.judge token now := by
          intro policy now
          rw [verify_result_of_decoded decoded, if_pos authentic]
        by_cases told : token.expiry.toNat ≤ 8210266876799
        · exact .inr ⟨token, rfl, told, judged⟩
        · refine .inl ⟨.malformedToken, .inl rfl, ?_⟩
          intro policy now
          rw [judged, judge, dif_neg told]
      · refine .inl ⟨.invalidSignature, .inr rfl, ?_⟩
        intro policy now
        rw [verify_result_of_decoded decoded, if_neg authentic]

theorem isTokenRejection_of_judge {policy : Policy} {token : Token} {now : Instant} {error : Error}
    (failed : policy.judge token now = .error error) : error.isTokenRejection = true := by
  unfold judge at failed
  split at failed
  · split at failed
    · cases failed
      rfl
    · cases failed
  · cases failed
    rfl

theorem isTokenRejection_of_verify {policy : Policy} {text : String} {key : SecretKey}
    {now : Instant} {error : Error}
    (failed : (policy.verify text key now).result = .error error) :
    error.isTokenRejection = true := by
  cases decoded : Token.decode text with
  | error fault =>
      rw [verify_result_of_refused decoded] at failed
      cases failed
      rfl
  | ok token =>
      rw [verify_result_of_decoded decoded] at failed
      split at failed
      · exact isTokenRejection_of_judge failed
      · cases failed
        rfl

/-! ## Tokens that were issued -/

def issuedToken (policy : Policy) (username : String) (key : SecretKey) (now : Instant) : Token :=
  Token.signed key (UInt64.ofNat (policy.expiryAt now).toNat) (UsernameHash.keyed username key)

theorem expiry_issuedToken {policy : Policy} {now : Instant} (can : policy.CanIssue now)
    (username : String) (key : SecretKey) :
    ((policy.issuedToken username key now).expiry.toNat : Int) = policy.expiryAt now := by
  obtain ⟨lower, upper⟩ := can
  change ((UInt64.ofNat (policy.expiryAt now).toNat).toNat : Int) = policy.expiryAt now
  rw [UInt64.toNat_ofNat']
  omega

theorem told_issuedToken {policy : Policy} {now : Instant} (can : policy.CanIssue now)
    (username : String) (key : SecretKey) :
    (policy.issuedToken username key now).expiry.toNat ≤ 8210266876799 := by
  have expiry := expiry_issuedToken can username key
  have upper := can.2
  omega

theorem issue_eq (policy : Policy) (username : String) (key : SecretKey) (now : Instant) :
    policy.issue username key now =
      if policy.CanIssue now then
        ⟨.ok (policy.issuedToken username key now).encode,
          [.issued (UInt64.ofNat (policy.expiryAt now).toNat)]⟩
      else .quiet (.error .expiryOutOfRange) := by
  rw [issue, expiry?_eq, UsernameHash.ofUsername_eq]
  by_cases can : policy.CanIssue now
  · rw [if_pos can, if_pos can]
    simp only [Option.elim_some, Token.sign_eq, Logged.ok_bind]
    rfl
  · rw [if_neg can, if_neg can]
    rfl

theorem issue_result (policy : Policy) (username : String) (key : SecretKey) (now : Instant) :
    (policy.issue username key now).result =
      if policy.CanIssue now then .ok (policy.issuedToken username key now).encode
      else .error .expiryOutOfRange := by
  rw [issue_eq, apply_ite Logged.result]
  rfl

theorem issue_eq_ok_iff {policy : Policy} {username text : String} {key : SecretKey}
    {now : Instant} :
    (policy.issue username key now).result = .ok text ↔
      policy.CanIssue now ∧ text = (policy.issuedToken username key now).encode := by
  rw [issue_result]
  constructor
  · intro issued
    split at issued
    · next can => exact ⟨can, (Except.ok.inj issued).symm⟩
    · cases issued
  · rintro ⟨can, rfl⟩
    rw [if_pos can]

theorem issue_of_canIssue {policy : Policy} {now : Instant} (can : policy.CanIssue now)
    (username : String) (key : SecretKey) :
    (policy.issue username key now).result = .ok (policy.issuedToken username key now).encode :=
  issue_eq_ok_iff.mpr ⟨can, rfl⟩

theorem CanIssue.inRange {policy : Policy} {now : Instant} (can : policy.CanIssue now) :
    Instant.InRange (policy.expiryAt now) := by
  obtain ⟨lower, upper⟩ := can
  unfold Instant.InRange
  omega

theorem judge_issuedToken {issuer : Policy} {login : Instant} (can : issuer.CanIssue login)
    (verifier : Policy) (username : String) (key : SecretKey) (now : Instant) :
    verifier.judge (issuer.issuedToken username key login) now =
      if now.IsAfter (issuer.expiryAt login) 0 then .error .tokenExpired
      else
        .ok
          { usernameHash := UsernameHash.keyed username key
            dueForRenewal :=
              now.IsAfter (issuer.expiryAt login - verifier.renewalWindow.seconds) 0
            expiresAt := Instant.beginning (issuer.expiryAt login) can.inRange } := by
  have expiry := expiry_issuedToken can username key
  rw [judge, dif_pos (told_issuedToken can username key)]
  simp only [expiry]
  rfl

theorem verify_result_of_issued (issuer verifier : Policy) (username : String) (key : SecretKey)
    (login now : Instant) :
    (verifier.verify (issuer.issuedToken username key login).encode key now).result =
      verifier.judge (issuer.issuedToken username key login) now := by
  have authentic : (issuer.issuedToken username key login).Authentic key :=
    Token.authentic_signed key _ _
  rw [verify_result_of_decoded (Token.decode_encode _), if_pos authentic]

/-- The window is shorter than the valid period by a whole second, which outweighs any fraction of
a second and any leap second. -/
theorem not_isAfter_renewal (policy : Policy) (now : Instant) :
    ¬ now.IsAfter (policy.expiryAt now - policy.renewalWindow.seconds) 0 := by
  have shorter := policy.window_seconds_lt
  unfold Instant.IsAfter expiryAt
  omega

/-! ## Main statements -/

/-- The outcomes of a check, in the order of their precedence.  Whatever is refused is a rejection of
the token. -/
theorem verify_outcomes (policy : Policy) (text : String) (key : SecretKey) (now : Instant) :
    (policy.verify text key now).result =
      (match Token.decode text with
      | .error _ => .error .malformedToken
      | .ok token =>
          if token.signature ≠ hmac (key.subKey .sessionSignature).toList
              (token.toBytes.take Token.payloadLength).toList then
            .error .invalidSignature
          else if late : 8210266876799 < token.expiry.toNat then .error .malformedToken
          else if now.IsAfter token.expiry.toNat 0 then .error .tokenExpired
          else
            .ok
              { usernameHash := token.usernameHash
                dueForRenewal := now.IsAfter (token.expiry.toNat - policy.renewalWindow.seconds) 0
                expiresAt := Instant.beginning token.expiry.toNat
                  (Token.inRange_expiry (Nat.le_of_not_lt late)) }) ∧
      ∀ error, (policy.verify text key now).result = .error error →
        error.isTokenRejection = true := by
  constructor
  · cases decoded : Token.decode text with
    | error error => exact verify_result_of_refused decoded policy key now
    | ok token =>
        rw [verify_result_of_decoded decoded]
        simp only [Token.take_toBytes]
        by_cases authentic : token.Authentic key
        · have signed : ¬ token.signature ≠
              hmac (key.subKey .sessionSignature).toList token.payload.toList :=
            not_not_intro authentic
          rw [if_pos authentic, if_neg signed, judge]
          by_cases late : 8210266876799 < token.expiry.toNat
          · rw [dif_neg (Nat.not_le_of_lt late), dif_pos late]
          · rw [dif_pos (Nat.le_of_not_lt late), dif_neg late]
        · rw [if_neg authentic]
          exact (if_pos authentic).symm
  · intro error failed
    exact isTokenRejection_of_verify failed

/-- A text that one policy issued, checked under another: it is never found malformed or forged, and
it is refused from its expiry on only. -/
theorem verify_issued_text (issuer verifier : Policy) (username : String) (key : SecretKey)
    (login now : Instant) (text : String)
    (issued : (issuer.issue username key login).result = .ok text) :
    ∃ (usernameHash : UsernameHash) (expiresAt : Instant),
      UsernameHash.ofUsername username key = .ok usernameHash ∧
      expiresAt.seconds = login.seconds + issuer.validPeriod.seconds ∧ expiresAt.nanos = 0 ∧
      (verifier.verify text key now).result =
        (if now.IsAfter (login.seconds + issuer.validPeriod.seconds) 0 then .error .tokenExpired
        else
          .ok
            { usernameHash := usernameHash
              dueForRenewal := now.IsAfter
                (login.seconds + issuer.validPeriod.seconds - verifier.renewalWindow.seconds) 0
              expiresAt := expiresAt }) ∧
      (issuer.verify text key login).result =
        .ok { usernameHash := usernameHash, dueForRenewal := false, expiresAt := expiresAt } ∧
      usernameHash.belongsTo username key = .ok true ∧
      ∀ other, ∃ otherHash, UsernameHash.ofUsername other key = .ok otherHash ∧
        usernameHash.belongsTo other key = .ok (decide (usernameHash = otherHash)) := by
  obtain ⟨can, rfl⟩ := issue_eq_ok_iff.mp issued
  have positive := Int.lt_trans issuer.window_seconds_pos issuer.window_seconds_lt
  have current : ¬ login.IsAfter (issuer.expiryAt login) 0 := by
    unfold Instant.IsAfter expiryAt
    omega
  refine ⟨UsernameHash.keyed username key, Instant.beginning (issuer.expiryAt login) can.inRange,
    UsernameHash.ofUsername_eq username key, rfl, rfl, ?_, ?_, ?_, ?_⟩
  · rw [verify_result_of_issued, judge_issuedToken can]
    rfl
  · rw [verify_result_of_issued, judge_issuedToken can, if_neg current,
      decide_eq_false (issuer.not_isAfter_renewal login)]
  · rw [UsernameHash.belongsTo_eq, decide_eq_true rfl]
  · intro other
    exact ⟨UsernameHash.keyed other key, UsernameHash.ofUsername_eq other key,
      UsernameHash.belongsTo_eq _ other key⟩

/-- A token of the shortest policy, issued in a leap second inside a minute, is fresh then; the
standard policy accepts it and finds it due. -/
theorem verify_issued_text_in_leap_second :
    ∃ text usernameHash expiresAt,
      (shortest.issue "" (SecretKey.uniform 90) Instant.innerLeapSecond).result = .ok text ∧
      expiresAt = Instant.beginning 1483228566 (by decide) ∧
      (shortest.verify text (SecretKey.uniform 90) Instant.innerLeapSecond).result =
        .ok { usernameHash := usernameHash, dueForRenewal := false, expiresAt := expiresAt } ∧
      (standard.verify text (SecretKey.uniform 90) Instant.innerLeapSecond).result =
        .ok { usernameHash := usernameHash, dueForRenewal := true, expiresAt := expiresAt } := by
  have can : shortest.CanIssue Instant.innerLeapSecond := by decide
  have issued := issue_of_canIssue can "" (SecretKey.uniform 90)
  obtain ⟨usernameHash, expiresAt, -, second, nanos, checked, fresh, -⟩ :=
    verify_issued_text shortest standard "" (SecretKey.uniform 90) Instant.innerLeapSecond
      Instant.innerLeapSecond _ issued
  refine ⟨_, usernameHash, expiresAt, issued, Instant.ext second nanos, fresh, ?_⟩
  rw [checked, if_neg (by decide), decide_eq_true (by decide)]

end Policy
end SignedSession
