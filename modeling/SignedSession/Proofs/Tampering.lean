import SignedSession.Proofs.Verification

/-!
# Tampering with a token

The bytes that get past the check of signatures are those whose last 32 are the code of the first
40 under the key for signatures.  Base64 is canonical, so a payload has one text that gets past.  An
altered payload under an old signature, or an old token under another secret, gets past only where
two different messages or keys happen to have one code.
-/

set_option autoImplicit false

namespace SignedSession

namespace Token

theorem decode_encode_bytes (bytes : Bytes byteLength) :
    decode (Base64.encode bytes.toList) = .ok (ofExactBytes bytes) := by
  have decoded := decode_encode (ofExactBytes bytes)
  rw [encode, toBytes_ofExactBytes] at decoded
  exact decoded

theorem payload_ofExactBytes (bytes : Bytes byteLength) :
    (ofExactBytes bytes).payload = bytes.take payloadLength := by
  rw [← take_toBytes, toBytes_ofExactBytes]

theorem authentic_ofExactBytes_iff {bytes : Bytes byteLength} {key : SecretKey} :
    (ofExactBytes bytes).Authentic key ↔
      bytes.drop payloadLength = signatureOf key (bytes.take payloadLength) := by
  rw [Authentic, payload_ofExactBytes]
  rfl

theorem eq_of_authentic {key : SecretKey} {left right : Token} (leftSigned : left.Authentic key)
    (rightSigned : right.Authentic key) (same : left.payload = right.payload) : left = right := by
  apply toBytes_injective
  have signature : left.signature = right.signature := by
    rw [leftSigned, rightSigned, same]
  rw [toBytes, toBytes, same, signature]

end Token

theorem Bytes.eq_of_take_of_drop {m n : Nat} {left right : Bytes (m + n)}
    (front : left.take m = right.take m) (back : left.drop m = right.drop m) : left = right := by
  rw [← append_take_drop left, front, back, append_take_drop]

namespace Policy

/-- Whether a text is that of a token and its signature is not what it is refused for. -/
def PassesSignature (policy : Policy) (text : String) (key : SecretKey) (now : Instant) : Prop :=
  (∃ token, Token.decode text = .ok token) ∧
    (policy.verify text key now).result ≠ .error .invalidSignature

theorem judge_ne_invalidSignature (policy : Policy) (token : Token) (now : Instant) :
    policy.judge token now ≠ .error .invalidSignature := by
  intro forged
  unfold judge at forged
  split at forged
  · split at forged
    · cases forged
    · cases forged
  · cases forged

theorem verify_eq_invalidSignature_iff {text : String} {token : Token}
    (decoded : Token.decode text = .ok token) {policy : Policy} {key : SecretKey} {now : Instant} :
    (policy.verify text key now).result = .error .invalidSignature ↔ ¬ token.Authentic key := by
  rw [verify_result_of_decoded decoded]
  by_cases authentic : token.Authentic key
  · rw [if_pos authentic]
    exact iff_of_false (policy.judge_ne_invalidSignature token now) (not_not_intro authentic)
  · rw [if_neg authentic]
    exact iff_of_true rfl authentic

theorem passesSignature_iff {policy : Policy} {text : String} {key : SecretKey} {now : Instant} :
    policy.PassesSignature text key now ↔
      ∃ token, Token.decode text = .ok token ∧ token.Authentic key := by
  constructor
  · rintro ⟨⟨token, decoded⟩, passed⟩
    refine ⟨token, decoded, Decidable.byContradiction ?_⟩
    intro forged
    exact passed ((verify_eq_invalidSignature_iff decoded).mpr forged)
  · rintro ⟨token, decoded, authentic⟩
    refine ⟨⟨token, decoded⟩, ?_⟩
    intro refused
    exact (verify_eq_invalidSignature_iff decoded).mp refused authentic

theorem passesSignature_bytes_iff {policy : Policy} {bytes : Bytes Token.byteLength}
    {key : SecretKey} {now : Instant} :
    policy.PassesSignature (Base64.encode bytes.toList) key now ↔
      bytes.drop Token.payloadLength = Token.signatureOf key (bytes.take Token.payloadLength) := by
  rw [passesSignature_iff, ← Token.authentic_ofExactBytes_iff]
  constructor
  · rintro ⟨token, decoded, authentic⟩
    rw [Token.decode_encode_bytes] at decoded
    cases decoded
    exact authentic
  · intro authentic
    exact ⟨_, Token.decode_encode_bytes bytes, authentic⟩

theorem exists_bytes_of_passesSignature {policy : Policy} {text : String} {key : SecretKey}
    {now : Instant} (passed : policy.PassesSignature text key now) :
    ∃ bytes : Bytes Token.byteLength, text = Base64.encode bytes.toList ∧
      bytes.drop Token.payloadLength = Token.signatureOf key (bytes.take Token.payloadLength) := by
  obtain ⟨token, decoded, authentic⟩ := passesSignature_iff.mp passed
  refine ⟨token.toBytes, Token.decode_eq_ok_iff.mp decoded, ?_⟩
  rw [Token.drop_toBytes, Token.take_toBytes]
  exact authentic

theorem passesSignature_of_issue {issuer : Policy} {username text : String} {key : SecretKey}
    {login : Instant} (issued : (issuer.issue username key login).result = .ok text)
    (policy : Policy) (now : Instant) : policy.PassesSignature text key now := by
  obtain ⟨-, rfl⟩ := issue_eq_ok_iff.mp issued
  exact passesSignature_iff.mpr ⟨_, Token.decode_encode _, Token.authentic_signed key _ _⟩

theorem eq_of_passesSignature {policy policy' : Policy} {text text' : String} {key : SecretKey}
    {now now' : Instant} {token token' : Token} (passed : policy.PassesSignature text key now)
    (passed' : policy'.PassesSignature text' key now') (decoded : Token.decode text = .ok token)
    (decoded' : Token.decode text' = .ok token') (same : token.payload = token'.payload) :
    text = text' := by
  obtain ⟨_, found, authentic⟩ := passesSignature_iff.mp passed
  obtain ⟨_, found', authentic'⟩ := passesSignature_iff.mp passed'
  cases decoded.symm.trans found
  cases decoded'.symm.trans found'
  have tokens := Token.eq_of_authentic authentic authentic' same
  rw [Token.decode_eq_ok_iff.mp decoded, Token.decode_eq_ok_iff.mp decoded', tokens]

theorem verify_of_altered_signature {key : SecretKey} {bytes changed : Bytes Token.byteLength}
    (signed : bytes.drop Token.payloadLength =
      Token.signatureOf key (bytes.take Token.payloadLength))
    (samePayload : changed.take Token.payloadLength = bytes.take Token.payloadLength)
    (altered : changed ≠ bytes) (policy : Policy) (now : Instant) :
    (policy.verify (Base64.encode changed.toList) key now).result = .error .invalidSignature := by
  rw [verify_eq_invalidSignature_iff (Token.decode_encode_bytes changed),
    Token.authentic_ofExactBytes_iff]
  intro resigned
  rw [samePayload, ← signed] at resigned
  exact altered (Bytes.eq_of_take_of_drop samePayload resigned)

theorem passesSignature_altered_payload_iff {key : SecretKey} {bytes : Bytes Token.byteLength}
    (signed : bytes.drop Token.payloadLength =
      Token.signatureOf key (bytes.take Token.payloadLength))
    (payload : Bytes Token.payloadLength) (policy : Policy) (now : Instant) :
    policy.PassesSignature
        (Base64.encode (payload.append (bytes.drop Token.payloadLength)).toList) key now ↔
      Token.signatureOf key payload = Token.signatureOf key (bytes.take Token.payloadLength) := by
  rw [passesSignature_bytes_iff, Bytes.take_append, Bytes.drop_append, signed, eq_comm]

theorem passesSignature_other_secret_iff {key : SecretKey} {text : String} {token : Token}
    (decoded : Token.decode text = .ok token) (authentic : token.Authentic key)
    (other : SecretKey) (policy : Policy) (now : Instant) :
    policy.PassesSignature text other now ↔
      Token.signatureOf other token.payload = Token.signatureOf key token.payload := by
  rw [passesSignature_iff, ← authentic]
  constructor
  · rintro ⟨_, found, authenticOther⟩
    cases decoded.symm.trans found
    exact authenticOther.symm
  · intro same
    exact ⟨token, decoded, same.symm⟩

/-- What a signature under a secret is worth.  With its payload it fixes the whole text, so a text
that gets past has no variant that does.  It carries over to another payload, and so to another expiry
or user, and a token carries over to another secret, only where the codes coincide. -/
theorem signature_fixes_text (key : SecretKey) :
    (∀ (policy policy' : Policy) (now now' : Instant) (text text' : String) (token token' : Token),
      policy.PassesSignature text key now → policy'.PassesSignature text' key now' →
      Token.decode text = .ok token → Token.decode text' = .ok token' →
      token.payload = token'.payload → text = text') ∧
    (∀ (policy : Policy) (now : Instant) (text : String), policy.PassesSignature text key now →
      ∃ bytes : Bytes Token.byteLength, Base64.decode text = .ok bytes.toList ∧
        (∀ changed : Bytes Token.byteLength,
          changed.take Token.payloadLength = bytes.take Token.payloadLength → changed ≠ bytes →
          ∀ (policy' : Policy) (now' : Instant),
            (policy'.verify (Base64.encode changed.toList) key now').result =
              .error .invalidSignature) ∧
        ∀ (payload : Bytes Token.payloadLength) (policy' : Policy) (now' : Instant),
          policy'.PassesSignature
              (Base64.encode (payload.append (bytes.drop Token.payloadLength)).toList) key now' ↔
            hmac (key.subKey .sessionSignature).toList payload.toList =
              hmac (key.subKey .sessionSignature).toList
                (bytes.take Token.payloadLength).toList) ∧
    (∀ (expiry expiry' : UInt64) (usernameHash usernameHash' : UsernameHash),
      Token.payloadOf expiry usernameHash = Token.payloadOf expiry' usernameHash' ↔
        expiry = expiry' ∧ usernameHash = usernameHash') ∧
    ∀ (issuer : Policy) (username text : String) (login : Instant),
      (issuer.issue username key login).result = .ok text →
      ∃ token, Token.decode text = .ok token ∧
        ∀ (other : SecretKey) (policy : Policy) (now : Instant),
          policy.PassesSignature text other now ↔
            hmac (other.subKey .sessionSignature).toList token.payload.toList =
              hmac (key.subKey .sessionSignature).toList token.payload.toList := by
  refine ⟨?_, ?_, ?_, ?_⟩
  · intro policy policy' now now' text text' token token' passed passed' decoded decoded' same
    exact eq_of_passesSignature passed passed' decoded decoded' same
  · intro policy now text passed
    obtain ⟨bytes, rfl, signed⟩ := exists_bytes_of_passesSignature passed
    refine ⟨bytes, Base64.decode_encode _, ?_, ?_⟩
    · intro changed samePayload altered policy' now'
      exact verify_of_altered_signature signed samePayload altered policy' now'
    · intro payload policy' now'
      exact passesSignature_altered_payload_iff signed payload policy' now'
  · intro expiry expiry' usernameHash usernameHash'
    exact Token.payloadOf_eq_iff
  · intro issuer username text login issued
    obtain ⟨-, rfl⟩ := issue_eq_ok_iff.mp issued
    refine ⟨issuer.issuedToken username key login, Token.decode_encode _, ?_⟩
    intro other policy now
    exact passesSignature_other_secret_iff (Token.decode_encode _)
      (Token.authentic_signed key _ _) other policy now

/-- A token of the standard policy whose signature is altered in any way is refused at any time. -/
theorem signature_fixes_text_of_standard :
    ∃ text, (standard.issue "admin" (SecretKey.uniform 90) Instant.innerLeapSecond).result = .ok text ∧
      ∃ bytes : Bytes Token.byteLength, Base64.decode text = .ok bytes.toList ∧
        ∀ changed : Bytes Token.byteLength,
          changed.take Token.payloadLength = bytes.take Token.payloadLength → changed ≠ bytes →
          ∀ now, (standard.verify (Base64.encode changed.toList) (SecretKey.uniform 90) now).result =
            .error .invalidSignature := by
  have can : standard.CanIssue Instant.innerLeapSecond := by decide
  have issued := issue_of_canIssue can "admin" (SecretKey.uniform 90)
  have passed := passesSignature_of_issue issued standard Instant.innerLeapSecond
  obtain ⟨bytes, decoded, altered, -⟩ :=
    (signature_fixes_text (SecretKey.uniform 90)).2.1 standard Instant.innerLeapSecond _ passed
  refine ⟨_, issued, bytes, decoded, ?_⟩
  intro changed samePayload different now
  exact altered changed samePayload different standard now

end Policy
end SignedSession
