import SignedSession.Proofs.Verification
import Mathlib.Data.List.Chain

/-!
# A session that slides along with its user

A user logs in once and then presents the token held at each request.  A token that is due is
replaced at once by one issued at the same instant.  As long as no request comes later than a renewal
window after the one before it, none is refused.

The invariant is that after each request the token held is not yet due: either the check found so, or
the token was issued just now, and a new token is not due.  So a whole renewal window is left.
-/

set_option autoImplicit false

namespace SignedSession

structure Cookie where
  text : String
  issuedAt : Instant

/-- A request that was served: the token presented, what the check found, and the token held from
then on. -/
structure Visit where
  now : Instant
  presented : Cookie
  session : Session
  kept : Cookie

namespace Policy

/-- A request at an instant.  It fails if the token presented is refused or if no new one can be
issued in its place. -/
def visit (policy : Policy) (username : String) (key : SecretKey) (held : Cookie) (now : Instant) :
    Except Error Visit := do
  let session ← (policy.verify held.text key now).result
  if session.dueForRenewal then
    let text ← (policy.issue username key now).result
    return ⟨now, held, session, ⟨text, now⟩⟩
  else return ⟨now, held, session, held⟩

def visits (policy : Policy) (username : String) (key : SecretKey) :
    (held : Cookie) → List Instant → Except Error (List Visit)
  | _, [] => return []
  | held, now :: later => do
      let visit ← policy.visit username key held now
      let rest ← policy.visits username key visit.kept later
      return visit :: rest

def stay (policy : Policy) (username : String) (key : SecretKey) (login : Instant)
    (requests : List Instant) : Except Error (List Visit) := do
  let text ← (policy.issue username key login).result
  policy.visits username key ⟨text, login⟩ requests

/-- Whether a request is not later than the one before it put off by a renewal window.  Only the
seconds are put off.  The request may also be the earlier of the two. -/
def InTime (policy : Policy) (earlier later : Instant) : Prop :=
  ¬ later.IsAfter (earlier.seconds + policy.renewalWindow.seconds) earlier.nanos

instance (policy : Policy) (earlier later : Instant) : Decidable (policy.InTime earlier later) :=
  inferInstanceAs (Decidable (¬ _))

section Run

variable (policy : Policy) (username : String) (key : SecretKey)

/-- What holds after a request: the token held was issued by the policy and is not due yet. -/
structure Lasts (held : Cookie) (now : Instant) : Prop where
  issued : (policy.issue username key held.issuedAt).result = .ok held.text
  fresh : ¬ now.IsAfter (policy.expiryAt held.issuedAt - policy.renewalWindow.seconds) 0

structure Served (visit : Visit) : Prop where
  issued : (policy.issue username key visit.presented.issuedAt).result = .ok visit.presented.text
  accepted : (policy.verify visit.presented.text key visit.now).result = .ok visit.session
  own : visit.session.usernameHash = UsernameHash.keyed username key
  current : ¬ visit.now.IsAfter (policy.expiryAt visit.presented.issuedAt) 0
  renewed : visit.session.dueForRenewal = true → visit.kept.issuedAt = visit.now ∧
    (policy.issue username key visit.now).result = .ok visit.kept.text
  retained : visit.session.dueForRenewal = false → visit.kept = visit.presented

variable {policy username key}

theorem lasts_of_issue {now : Instant} {text : String}
    (issued : (policy.issue username key now).result = .ok text) :
    policy.Lasts username key ⟨text, now⟩ now :=
  ⟨issued, policy.not_isAfter_renewal now⟩

theorem not_expired_of_lasts {held : Cookie} {earlier now : Instant}
    (lasts : policy.Lasts username key held earlier) (inTime : policy.InTime earlier now) :
    ¬ now.IsAfter (policy.expiryAt held.issuedAt) 0 := by
  have fresh := lasts.fresh
  unfold InTime at inTime
  unfold Instant.IsAfter at *
  omega

theorem accepted_of_lasts {held : Cookie} {earlier now : Instant}
    (lasts : policy.Lasts username key held earlier) (inTime : policy.InTime earlier now) :
    ∃ session, (policy.verify held.text key now).result = .ok session ∧
      session.usernameHash = UsernameHash.keyed username key ∧
      session.dueForRenewal =
        decide (now.IsAfter (policy.expiryAt held.issuedAt - policy.renewalWindow.seconds) 0) := by
  obtain ⟨can, textExact⟩ := issue_eq_ok_iff.mp lasts.issued
  rw [textExact, verify_result_of_issued, judge_issuedToken can,
    if_neg (not_expired_of_lasts lasts inTime)]
  exact ⟨_, rfl, rfl, rfl⟩

theorem visit_of_lasts {held : Cookie} {earlier now : Instant}
    (lasts : policy.Lasts username key held earlier) (inTime : policy.InTime earlier now)
    (can : policy.CanIssue now) :
    ∃ visit, policy.visit username key held now = .ok visit ∧ visit.now = now ∧
      policy.Served username key visit ∧ policy.Lasts username key visit.kept now := by
  obtain ⟨session, accepted, own, due⟩ := accepted_of_lasts lasts inTime
  have current := not_expired_of_lasts lasts inTime
  rw [visit, accepted, ok_bind]
  cases renew : session.dueForRenewal with
  | true =>
      have issued := issue_of_canIssue can username key
      rw [if_pos rfl, issued, ok_bind]
      refine ⟨_, rfl, rfl, ⟨lasts.issued, accepted, own, current, fun _ => ⟨rfl, issued⟩, ?_⟩,
        lasts_of_issue issued⟩
      intro kept
      rw [renew] at kept
      cases kept
  | false =>
      rw [if_neg Bool.false_ne_true]
      refine ⟨_, rfl, rfl, ⟨lasts.issued, accepted, own, current, ?_, fun _ => rfl⟩,
        lasts.issued, ?_⟩
      · intro replaced
        rw [renew] at replaced
        cases replaced
      · rw [renew] at due
        exact of_decide_eq_false due.symm

theorem visits_of_lasts {held : Cookie} {earlier : Instant} {requests : List Instant}
    (lasts : policy.Lasts username key held earlier)
    (paced : (earlier :: requests).IsChain policy.InTime)
    (can : ∀ now ∈ requests, policy.CanIssue now) :
    ∃ log, policy.visits username key held requests = .ok log ∧ log.map Visit.now = requests ∧
      ∀ visit ∈ log, policy.Served username key visit := by
  induction requests generalizing held earlier with
  | nil => exact ⟨[], rfl, rfl, by simp⟩
  | cons now later ih =>
      obtain ⟨inTime, pacedLater⟩ := List.isChain_cons_cons.mp paced
      obtain ⟨canNow, canLater⟩ := List.forall_mem_cons.mp can
      obtain ⟨visit, served, visitNow, visitServed, lastsOn⟩ := visit_of_lasts lasts inTime canNow
      obtain ⟨rest, restServed, restNow, restAll⟩ := ih lastsOn pacedLater canLater
      refine ⟨visit :: rest, ?_, ?_, ?_⟩
      · rw [visits, served, ok_bind, restServed]
        rfl
      · rw [List.map_cons, visitNow, restNow]
      · exact List.forall_mem_cons.mpr ⟨visitServed, restAll⟩

end Run

/-- A user who is never away for longer than a renewal window stays logged in: each check succeeds
and names the user, each replacement succeeds, and no token is accepted for longer than the valid
period of the policy. -/
theorem stay_of_paced (policy : Policy) (username : String) (key : SecretKey) (login : Instant)
    (requests : List Instant) (paced : (login :: requests).IsChain policy.InTime)
    (can : ∀ now ∈ login :: requests, policy.CanIssue now) :
    ∃ usernameHash log, UsernameHash.ofUsername username key = .ok usernameHash ∧
      policy.stay username key login requests = .ok log ∧ log.map Visit.now = requests ∧
      ∀ visit ∈ log,
        (policy.issue username key visit.presented.issuedAt).result = .ok visit.presented.text ∧
        (policy.verify visit.presented.text key visit.now).result = .ok visit.session ∧
        visit.session.usernameHash = usernameHash ∧
        ¬ visit.now.IsAfter (visit.presented.issuedAt.seconds + policy.validPeriod.seconds) 0 ∧
        if visit.session.dueForRenewal then
          visit.kept.issuedAt = visit.now ∧
            (policy.issue username key visit.now).result = .ok visit.kept.text
        else visit.kept = visit.presented := by
  obtain ⟨canLogin, canLater⟩ := List.forall_mem_cons.mp can
  have issued := issue_of_canIssue canLogin username key
  obtain ⟨log, served, requestsExact, all⟩ :=
    visits_of_lasts (lasts_of_issue issued) paced canLater
  refine ⟨UsernameHash.keyed username key, log, UsernameHash.ofUsername_eq username key, ?_,
    requestsExact, ?_⟩
  · rw [stay, issued, ok_bind, served]
  · intro visit member
    have visitServed := all visit member
    refine ⟨visitServed.issued, visitServed.accepted, visitServed.own, visitServed.current, ?_⟩
    cases renew : visit.session.dueForRenewal with
    | true => exact visitServed.renewed renew
    | false => exact visitServed.retained renew

/-- Four requests under the shortest policy after a login in a leap second.  The first comes in another
one, which follows the first second of a minute, and a nanosecond before it would be too late.  The last
comes before the one in front of it. -/
theorem stay_of_paced_from_leap_second :
    ∃ log,
      shortest.stay "admin" (SecretKey.uniform 90) Instant.leapSecond
          [⟨1483228800, 1499999999, by decide, by decide⟩, ⟨1483228801, 0, by decide, by decide⟩,
            ⟨1483228802, 0, by decide, by decide⟩, ⟨1483228799, 1, by decide, by decide⟩] =
        .ok log ∧
      log.length = 4 ∧
      ∀ visit ∈ log,
        ¬ visit.now.IsAfter (visit.presented.issuedAt.seconds + shortest.validPeriod.seconds) 0 := by
  obtain ⟨_, log, -, served, requests, all⟩ :=
    stay_of_paced shortest "admin" (SecretKey.uniform 90) Instant.leapSecond
      [⟨1483228800, 1499999999, by decide, by decide⟩, ⟨1483228801, 0, by decide, by decide⟩,
        ⟨1483228802, 0, by decide, by decide⟩, ⟨1483228799, 1, by decide, by decide⟩]
      (by decide) (by decide)
  refine ⟨log, served, ?_, ?_⟩
  · have length := congrArg List.length requests
    rw [List.length_map] at length
    exact length
  · intro visit member
    rcases all visit member with ⟨-, -, -, current, -⟩
    exact current

end Policy
end SignedSession
