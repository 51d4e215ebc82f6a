import SignedSession.Proofs.Verification
import Mathlib.Data.List.Chain
import Mathlib.Order.Basic

/-!
# How a token ages

A text that is not refused for good goes through three stages: it is fresh, then due for renewal, then
expired.  A later instant never leads back, and neither does a wider renewal window, so the stages met
along any sequence of checks that goes forwards in time never fall.
-/

set_option autoImplicit false

namespace SignedSession

/-- What a check may find of a token that is not refused for good. -/
inductive Stage
  | fresh
  | due
  | expired
deriving DecidableEq

namespace Stage

def rank : Stage → Nat
  | fresh => 0
  | due => 1
  | expired => 2

instance : Preorder Stage := Preorder.lift rank

instance (left right : Stage) : Decidable (left ≤ right) :=
  inferInstanceAs (Decidable (left.rank ≤ right.rank))

def ofResult? : Except Error Session → Option Stage
  | .ok session => some (if session.dueForRenewal then due else fresh)
  | .error .tokenExpired => some expired
  | .error _ => none

end Stage

/-- What a session grants: whom it names and until when it is accepted. -/
def Session.granted (session : Session) : UsernameHash × Instant :=
  (session.usernameHash, session.expiresAt)

namespace Policy

theorem window_seconds_le {policy wider : Policy}
    (le : policy.renewalWindow ≤ wider.renewalWindow) :
    policy.renewalWindow.seconds ≤ wider.renewalWindow.seconds := by
  have nanoseconds : policy.renewalWindow.nanoseconds ≤ wider.renewalWindow.nanoseconds := le
  rw [Duration.nanoseconds_eq_of_isWhole policy.window_whole,
    Duration.nanoseconds_eq_of_isWhole wider.window_whole] at nanoseconds
  omega

/-! ## The stage of a token at an instant -/

def stageAt (policy : Policy) (token : Token) (now : Instant) : Stage :=
  if now.IsAfter token.expiry.toNat 0 then .expired
  else if now.IsAfter (token.expiry.toNat - policy.renewalWindow.seconds) 0 then .due
  else .fresh

theorem ofResult?_judge {token : Token} (told : token.expiry.toNat ≤ 8210266876799)
    (policy : Policy) (now : Instant) :
    Stage.ofResult? (policy.judge token now) = some (policy.stageAt token now) := by
  rw [judge, dif_pos told, stageAt]
  by_cases expired : now.IsAfter token.expiry.toNat 0
  · rw [if_pos expired, if_pos expired]
    rfl
  · rw [if_neg expired, if_neg expired, Stage.ofResult?]
    by_cases due : now.IsAfter (token.expiry.toNat - policy.renewalWindow.seconds) 0
    · rw [decide_eq_true due, if_pos rfl, if_pos due]
    · rw [decide_eq_false due, if_neg Bool.false_ne_true, if_neg due]

theorem stageAt_mono {policy wider : Policy} {now later : Instant}
    (window : policy.renewalWindow ≤ wider.renewalWindow) (notBefore : now ≤ later)
    (token : Token) : policy.stageAt token now ≤ wider.stageAt token later := by
  have begins : (token.expiry.toNat : Int) - wider.renewalWindow.seconds ≤
      token.expiry.toNat - policy.renewalWindow.seconds := by
    have seconds := window_seconds_le window
    omega
  rw [stageAt, stageAt]
  by_cases expired : now.IsAfter token.expiry.toNat 0
  · rw [if_pos expired, if_pos (expired.mono notBefore (Int.le_refl _))]
  · rw [if_neg expired]
    by_cases due : now.IsAfter (token.expiry.toNat - policy.renewalWindow.seconds) 0
    · rw [if_pos due, if_pos (due.mono notBefore begins)]
      -- In the meantime the token may have expired.
      split
      · decide
      · decide
    · rw [if_neg due]
      exact Nat.zero_le _

theorem pairwise_stageAt (policy : Policy) (token : Token) {times : List Instant}
    (forwards : times.IsChain (· ≤ ·)) : (times.map (policy.stageAt token)).Pairwise (· ≤ ·) := by
  -- The order of stages is transitive, so it is enough to compare each check with the next one.
  apply List.isChain_iff_pairwise.mp
  rw [List.isChain_map]
  apply forwards.imp
  intro now later notBefore
  exact stageAt_mono (Int.le_refl _) notBefore token

/-! ## What no policy and no instant changes -/

theorem granted_of_judge {policy : Policy} {token : Token} {now : Instant} {session : Session}
    (told : token.expiry.toNat ≤ 8210266876799) (accepted : policy.judge token now = .ok session) :
    session.granted =
      (token.usernameHash, Instant.beginning token.expiry.toNat (Token.inRange_expiry told)) := by
  obtain ⟨_, -, rfl⟩ := judge_eq_ok_iff.mp accepted
  rfl

theorem map_granted_judge (policy policy' : Policy) (token : Token) (now : Instant) :
    (policy.judge token now).map Session.granted = (policy'.judge token now).map Session.granted := by
  unfold judge
  split
  · split
    · rfl
    · rfl
  · rfl

theorem refused_of_refused {text : String} {key : SecretKey} {policy : Policy} {now : Instant}
    {error : Error} (final : error = .malformedToken ∨ error = .invalidSignature)
    (refused : (policy.verify text key now).result = .error error) (policy' : Policy)
    (now' : Instant) : (policy'.verify text key now').result = .error error := by
  rcases refused_or_judged text key with ⟨found, -, always⟩ | ⟨token, -, told, judged⟩
  · rw [always] at refused ⊢
    exact refused
  · rw [judged] at refused
    have stage := ofResult?_judge told policy now
    rw [refused] at stage
    rcases final with rfl | rfl
    · cases stage
    · cases stage

/-! ## Main statement -/

/-- Under a window at least as wide and at an instant not earlier, a text is refused for the same fault
or has come at least as far, and it names the same user and the same expiry.  Along instants that go
forwards its stages never fall, and whether it is accepted does not depend on the policy. -/
theorem verify_monotone (text : String) (key : SecretKey) :
    (∀ (policy wider : Policy) (now later : Instant),
      policy.renewalWindow ≤ wider.renewalWindow → now ≤ later →
      (∀ error, error = .malformedToken ∨ error = .invalidSignature →
        (policy.verify text key now).result = .error error →
        (wider.verify text key later).result = .error error) ∧
      ((policy.verify text key now).result ≠ .error .malformedToken →
        (policy.verify text key now).result ≠ .error .invalidSignature →
        ∃ stage stage', Stage.ofResult? (policy.verify text key now).result = some stage ∧
          Stage.ofResult? (wider.verify text key later).result = some stage' ∧ stage ≤ stage') ∧
      ∀ session session', (policy.verify text key now).result = .ok session →
        (wider.verify text key later).result = .ok session' →
        session.usernameHash = session'.usernameHash ∧ session.expiresAt = session'.expiresAt) ∧
    (∀ (policy : Policy) (times : List Instant), times.IsChain (· ≤ ·) →
      (∃ error, (error = .malformedToken ∨ error = .invalidSignature) ∧
        ∀ now ∈ times, (policy.verify text key now).result = .error error) ∨
      ∃ stages : List Stage,
        times.map (fun now => Stage.ofResult? (policy.verify text key now).result) =
          stages.map some ∧ stages.Pairwise (· ≤ ·)) ∧
    ∀ (policy policy' : Policy) (now : Instant),
      (policy.verify text key now).result.map Session.granted =
        (policy'.verify text key now).result.map Session.granted := by
  refine ⟨?_, ?_, ?_⟩
  · intro policy wider now later window notBefore
    refine ⟨?_, ?_, ?_⟩
    · intro error final refused
      exact refused_of_refused final refused wider later
    · intro wellFormed signed
      rcases refused_or_judged text key with ⟨error, rfl | rfl, always⟩ | ⟨token, -, told, judged⟩
      · exact absurd (always policy now) wellFormed
      · exact absurd (always policy now) signed
      · rw [judged, judged]
        exact ⟨_, _, ofResult?_judge told policy now, ofResult?_judge told wider later,
          stageAt_mono window notBefore token⟩
    · intro session session' accepted accepted'
      rcases refused_or_judged text key with ⟨error, -, always⟩ | ⟨token, -, told, judged⟩
      · rw [always] at accepted
        cases accepted
      · rw [judged] at accepted accepted'
        have same := (granted_of_judge told accepted).trans (granted_of_judge told accepted').symm
        exact ⟨congrArg Prod.fst same, congrArg Prod.snd same⟩
  · intro policy times forwards
    rcases refused_or_judged text key with ⟨error, final, always⟩ | ⟨token, -, told, judged⟩
    · refine .inl ⟨error, final, ?_⟩
      intro now _
      exact always policy now
    · refine .inr ⟨times.map (policy.stageAt token), ?_, pairwise_stageAt policy token forwards⟩
      rw [List.map_map]
      apply List.map_congr_left
      intro now _
      rw [judged]
      exact ofResult?_judge told policy now
  · intro policy policy' now
    rcases refused_or_judged text key with ⟨error, -, always⟩ | ⟨token, -, -, judged⟩
    · rw [always, always]
    · rw [judged, judged]
      exact map_granted_judge policy policy' token now

/-- A token of the shortest policy, issued in a leap second: the standard policy finds it no fresher in
the year that follows, and the stages that its own policy finds in four checks do not fall.  The third of
these is in another leap second, after the first second of that year. -/
theorem verify_monotone_from_leap_second :
    ∃ text, (shortest.issue "admin" (SecretKey.uniform 90) Instant.leapSecond).result = .ok text ∧
      (∃ stage stage',
        Stage.ofResult? (shortest.verify text (SecretKey.uniform 90) Instant.leapSecond).result =
            some stage ∧
          Stage.ofResult? (standard.verify text (SecretKey.uniform 90) Instant.newYear).result =
            some stage' ∧ stage ≤ stage') ∧
      ∃ stages : List Stage,
        [Instant.leapSecond, Instant.newYear, ⟨1483228800, 1999999999, by decide, by decide⟩,
          Instant.beginning 1483228802 (by decide)].map
          (fun now => Stage.ofResult? (shortest.verify text (SecretKey.uniform 90) now).result) =
            stages.map some ∧ stages.Pairwise (· ≤ ·) := by
  have can : shortest.CanIssue Instant.leapSecond := by decide
  have issued := issue_of_canIssue can "admin" (SecretKey.uniform 90)
  have accepted := verify_result_of_issued shortest shortest "admin" (SecretKey.uniform 90)
    Instant.leapSecond Instant.leapSecond
  rw [judge_issuedToken can, if_neg (by decide)] at accepted
  obtain ⟨step, run, -⟩ := verify_monotone
    (shortest.issuedToken "admin" (SecretKey.uniform 90) Instant.leapSecond).encode
    (SecretKey.uniform 90)
  refine ⟨_, issued, ?_, ?_⟩
  · apply (step shortest standard _ Instant.newYear (by decide) (by decide)).2.1
    · intro refused
      rw [accepted] at refused
      cases refused
    · intro refused
      rw [accepted] at refused
      cases refused
  · rcases run shortest [Instant.leapSecond, Instant.newYear,
      ⟨1483228800, 1999999999, by decide, by decide⟩,
      Instant.beginning 1483228802 (by decide)] (by decide) with ⟨error, -, refused⟩ | rises
    · have first := refused Instant.leapSecond List.mem_cons_self
      rw [accepted] at first
      cases first
    · exact rises

end Policy
end SignedSession
