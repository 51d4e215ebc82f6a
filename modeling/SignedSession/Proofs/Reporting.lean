import SignedSession.Proofs.Verification

/-!
# What the log is told

Issuing reports the expiry, and a check reports what it refuses.  `verify_events` says what the log is
told of a check: it is computed from the expiry that the text shows and from how the check ends.  The main
statements are which refusals are reported, and that no secret, user or token makes a difference to the
log beyond these two.
-/

set_option autoImplicit false

namespace SignedSession

namespace Logged

variable {α : Type}

/-- What a computation writes to the log, line by line. -/
def lines (logged : Logged α) : List String := logged.events.map Event.line

/-- How a computation ends, without what it gives. -/
def outcome (logged : Logged α) : Except Error Unit := logged.result.map fun _ => ()

end Logged

/-- The expiry that a text shows to everyone, if it is a token. -/
def Token.shownExpiry? (text : String) : Option UInt64 :=
  match decode text with
  | .ok token => some token.expiry
  | .error _ => none

namespace Event

theorem line_issued (expiry : UInt64) :
    (issued expiry).line = "TRACE Issued session token expiring at " ++ toString expiry.toNat := by
  have start : "TRACE" ++ " " ++ "Issued session token expiring at " =
      "TRACE Issued session token expiring at " := by decide
  change "TRACE" ++ " " ++ ("Issued session token expiring at " ++ toString expiry.toNat) = _
  rw [← String.append_assoc, start]

theorem line_tokenExpired (expiry : Int) :
    (tokenExpired expiry).line =
      "DEBUG Rejected session token that expired at " ++ (Civil.ofUnix expiry).text := by
  have start : "DEBUG" ++ " " ++ "Rejected session token that expired at " =
      "DEBUG Rejected session token that expired at " := by decide
  change "DEBUG" ++ " " ++
    ("Rejected session token that expired at " ++ (Civil.ofUnix expiry).text) = _
  rw [← String.append_assoc, start]

/-- What the log is told of a check, from the expiry that the text shows and how the check ends. -/
def ofCheck : Option UInt64 → Except Error Unit → List Event
  | none, .error .malformedToken => [malformedToken]
  | _, .error .invalidSignature => [invalidSignature]
  | some expiry, .error .tokenExpired => [tokenExpired expiry.toNat]
  | _, _ => []

end Event

namespace Policy

theorem expiredEvents_eq_ofCheck (policy : Policy) (token : Token) (now : Instant) :
    token.expiredEvents now =
      Event.ofCheck (some token.expiry) ((policy.judge token now).map fun _ => ()) := by
  rw [Token.expiredEvents, judge]
  by_cases told : token.expiry.toNat ≤ 8210266876799
  · rw [dif_pos told]
    by_cases late : now.IsAfter token.expiry.toNat 0
    · rw [if_pos ⟨told, late⟩, if_pos late]
      rfl
    · rw [if_neg (fun refused => late refused.2), if_neg late]
      rfl
  · rw [if_neg (fun refused => told refused.1), dif_neg told]
    rfl

theorem verify_events (policy : Policy) (text : String) (key : SecretKey) (now : Instant) :
    (policy.verify text key now).events =
      Event.ofCheck (Token.shownExpiry? text) (policy.verify text key now).outcome := by
  cases decoded : Token.decode text with
  | error error =>
      rw [verify_of_refused decoded, Token.shownExpiry?, decoded]
      rfl
  | ok token =>
      rw [verify_of_decoded decoded, Token.shownExpiry?, decoded]
      by_cases authentic : token.Authentic key
      · rw [if_pos authentic]
        exact expiredEvents_eq_ofCheck policy token now
      · rw [if_neg authentic]
        rfl

/-! ## Which refusals are reported -/

/-- A check of a text is reported: a refusal in one line for its reason, and nothing but a refusal. -/
inductive Reported (text : String) : Except Error Session → List String → Prop
  | accepted (session : Session) : Reported text (.ok session) []
  | malformed :
      Reported text (.error .malformedToken) ["DEBUG Rejected malformed session token"]
  | forged :
      Reported text (.error .invalidSignature)
        ["WARN Rejected session token with an invalid signature"]
  | expired (token : Token) (decoded : Token.decode text = .ok token) :
      Reported text (.error .tokenExpired)
        ["DEBUG Rejected session token that expired at " ++
          (Civil.ofUnix token.expiry.toNat).text]

/-- Whether a text is a token that the secret signed and whose expiry is too late to be an instant. -/
def Overlooked (text : String) (key : SecretKey) : Prop :=
  ∃ token, Token.decode text = .ok token ∧ token.Authentic key ∧
    8210266876799 < token.expiry.toNat

theorem verify_of_overlooked {text : String} {key : SecretKey} (overlooked : Overlooked text key)
    (policy : Policy) (now : Instant) :
    policy.verify text key now = .quiet (.error .malformedToken) := by
  obtain ⟨token, decoded, authentic, late⟩ := overlooked
  have untold : ¬ token.expiry.toNat ≤ 8210266876799 := Nat.not_le_of_lt late
  rw [verify_of_decoded decoded, if_pos authentic, judge, dif_neg untold, Token.expiredEvents,
    if_neg (fun refused => untold refused.1)]
  rfl

theorem reported_of_not_overlooked {text : String} {key : SecretKey}
    (seen : ¬ Overlooked text key) (policy : Policy) (now : Instant) :
    Reported text (policy.verify text key now).result (policy.verify text key now).lines := by
  cases decoded : Token.decode text with
  | error error =>
      rw [verify_of_refused decoded]
      exact .malformed
  | ok token =>
      rw [verify_of_decoded decoded]
      by_cases authentic : token.Authentic key
      · have told : token.expiry.toNat ≤ 8210266876799 := by
          by_contra late
          exact seen ⟨token, decoded, authentic, Nat.lt_of_not_le late⟩
        rw [if_pos authentic, judge, dif_pos told, Token.expiredEvents]
        by_cases late : now.IsAfter token.expiry.toNat 0
        · rw [if_pos late, if_pos ⟨told, late⟩, Logged.lines, List.map_cons, List.map_nil,
            Event.line_tokenExpired]
          exact .expired token decoded
        · rw [if_neg late, if_neg (fun refused => late refused.2)]
          exact .accepted _
      · rw [if_neg authentic]
        exact .forged

theorem not_reported_quietly {text : String} :
    ¬ Reported text (.error .malformedToken) [] := by
  intro reported
  cases reported

/-- A check of a text is reported unless the text is overlooked.  Then it is refused as malformed, and the
log is told nothing. -/
theorem reported_iff_not_overlooked (policy : Policy) (text : String) (key : SecretKey)
    (now : Instant) :
    (Reported text (policy.verify text key now).result (policy.verify text key now).lines ↔
      ¬ Overlooked text key) ∧
    (Overlooked text key ↔
      (policy.verify text key now).result = .error .malformedToken ∧
        (policy.verify text key now).lines = []) := by
  constructor
  · constructor
    · intro reported overlooked
      rw [verify_of_overlooked overlooked] at reported
      exact not_reported_quietly reported
    · intro seen
      exact reported_of_not_overlooked seen policy now
  · constructor
    · intro overlooked
      rw [verify_of_overlooked overlooked]
      exact ⟨rfl, rfl⟩
    · rintro ⟨refused, quiet⟩
      by_contra seen
      have reported := reported_of_not_overlooked seen policy now
      rw [refused, quiet] at reported
      exact not_reported_quietly reported

/-- A token that expires one second after the last instant there is. -/
theorem not_reported_one_second_late :
    ∃ text, text = (Token.signed (SecretKey.uniform 90) 8210266876800
        (UsernameHash.keyed "admin" (SecretKey.uniform 90))).encode ∧
      (standard.verify text (SecretKey.uniform 90) Instant.newYear).result =
        .error .malformedToken ∧
      (standard.verify text (SecretKey.uniform 90) Instant.newYear).lines = [] := by
  refine ⟨_, rfl, ?_⟩
  rw [verify_of_overlooked ⟨_, Token.decode_encode _, Token.authentic_signed _ _ _, by decide⟩]
  exact ⟨rfl, rfl⟩

/-! ## What the log does not tell -/

theorem issue_lines (policy : Policy) (username : String) (key : SecretKey) (now : Instant) :
    (policy.issue username key now).lines =
      if policy.CanIssue now then
        ["TRACE Issued session token expiring at " ++
          toString (policy.issuedToken username key now).expiry.toNat]
      else [] := by
  rw [issue_eq, Logged.lines]
  by_cases can : policy.CanIssue now
  · rw [if_pos can, if_pos can, List.map_cons, List.map_nil, Event.line_issued]
    rfl
  · rw [if_neg can, if_neg can]
    rfl

theorem shownExpiry?_issuedToken (policy : Policy) (username : String) (key : SecretKey)
    (now : Instant) :
    Token.shownExpiry? (policy.issuedToken username key now).encode =
      some (UInt64.ofNat (policy.expiryAt now).toNat) := by
  rw [Token.shownExpiry?, Token.decode_encode]
  rfl

/-- The log is told the same of every user and every secret when a token is issued, and nothing when none
is.  What it is told of two checks is the same when the texts show the same and the checks end alike. -/
theorem log_tells_expiry_and_outcome :
    (∀ (policy : Policy) (now : Instant),
      (∃ expiry : UInt64, ∀ (username : String) (key : SecretKey),
        (∃ token, (policy.issue username key now).result = .ok (Token.encode token) ∧
          token.expiry = expiry) ∧
        (policy.issue username key now).lines =
          ["TRACE Issued session token expiring at " ++ toString expiry.toNat]) ∨
      ∀ (username : String) (key : SecretKey),
        (policy.issue username key now).result = .error .expiryOutOfRange ∧
        (policy.issue username key now).lines = []) ∧
    (∀ (policy policy' : Policy) (text text' : String) (key key' : SecretKey) (now now' : Instant),
      Token.shownExpiry? text = Token.shownExpiry? text' →
      (policy.verify text key now).outcome = (policy'.verify text' key' now').outcome →
      (policy.verify text key now).lines = (policy'.verify text' key' now').lines) ∧
    ∀ (policy : Policy) (text : String) (key : SecretKey) (now : Instant),
      (policy.verify text key now).lines =
        (Event.ofCheck (Token.shownExpiry? text) (policy.verify text key now).outcome).map
          Event.line := by
  refine ⟨?_, ?_, ?_⟩
  · intro policy now
    by_cases can : policy.CanIssue now
    · refine .inl ⟨UInt64.ofNat (policy.expiryAt now).toNat, ?_⟩
      intro username key
      refine ⟨⟨policy.issuedToken username key now, issue_of_canIssue can username key, rfl⟩, ?_⟩
      rw [issue_lines, if_pos can]
      rfl
    · refine .inr ?_
      intro username key
      rw [issue_result, issue_lines, if_neg can, if_neg can]
      exact ⟨rfl, rfl⟩
  · intro policy policy' text text' key key' now now' sameExpiry sameOutcome
    rw [Logged.lines, Logged.lines, verify_events, verify_events, sameExpiry, sameOutcome]
  · intro policy text key now
    rw [Logged.lines, verify_events]

/-- The tokens of two users under two secrets, both looked at after they have expired. -/
theorem log_tells_expiry_and_outcome_of_two_users :
    (shortest.verify
        (shortest.issuedToken "alice" (SecretKey.uniform 90) Instant.leapSecond).encode
        (SecretKey.uniform 90) (Instant.beginning 1483228802 (by decide))).lines =
      (standard.verify
        (shortest.issuedToken "bob" (SecretKey.uniform 7) Instant.leapSecond).encode
        (SecretKey.uniform 7) (Instant.beginning 4102444800 (by decide))).lines := by
  obtain ⟨-, twoChecks, -⟩ := log_tells_expiry_and_outcome
  have can : shortest.CanIssue Instant.leapSecond := by decide
  apply twoChecks
  · rw [shownExpiry?_issuedToken, shownExpiry?_issuedToken]
  · rw [Logged.outcome, Logged.outcome, verify_result_of_issued, verify_result_of_issued,
      judge_issuedToken can, judge_issuedToken can, if_pos (by decide), if_pos (by decide)]

end Policy
end SignedSession
