import TPUSwarm.Store.Calls
import Mathlib.Algebra.Order.Ring.Rat

/-!
# Leases and fence tokens

A single row says who leads, while the lease objects handed out live on in the processes
that got them. The invariant relates the row to every lease ever handed out: the leases of
the holder end no later than the row does, and all others have ended by the last reading of
the clock.
-/

namespace TPUSwarm

open Common

/-- A lease handed out: when, and whether by an acquisition or by a renewal. -/
structure Issue where
  lease : ControllerLease
  issuedAt : Time
  acquired : Bool
deriving DecidableEq

/-- A request of a controller for leadership, or to keep it. -/
inductive LeaderRequest
  | acquire (controllerId : String)
  | renew (lease : ControllerLease)

/-- The store, and the leases handed out so far. -/
structure Desk where
  store : SwarmStore
  issued : List Issue

/-- Serve a request at a time. Every controller has its own lease duration. -/
def Desk.serve (leaseSeconds : String → Time) (desk : Desk) : LeaderRequest × Time → Desk
  | (.acquire controllerId, now) =>
    match SwarmStore.acquireLeadership controllerId (leaseSeconds controllerId) now desk.store with
    | .ok (some lease, store) => ⟨store, desk.issued ++ [⟨lease, now, true⟩]⟩
    | .ok (none, store) => ⟨store, desk.issued⟩
    | .error _ => desk
  | (.renew lease, now) =>
    match SwarmStore.renewLeadership lease (leaseSeconds lease.controllerId) now desk.store with
    | .ok (renewed, store) => ⟨store, desk.issued ++ [⟨renewed, now, false⟩]⟩
    | .error _ => desk

namespace SwarmStore

variable {store store' : SwarmStore} {seconds now : Time}

/-- What an acquisition writes, and what it found before. -/
theorem acquireLeadership_some {controllerId : String} {lease : ControllerLease}
    (h : acquireLeadership controllerId seconds now store = .ok (some lease, store')) :
    lease.controllerId = controllerId ∧ lease.leaseExpiresAt = now + seconds ∧
      store'.leadership = some ⟨controllerId, lease.fenceToken, lease.leaseExpiresAt, now⟩ ∧
      ∀ row, store.leadership = some row →
        lease.fenceToken = row.fenceToken + 1 ∧ (row.controllerId = controllerId ∨ row.leaseExpiresAt ≤ now) := by
  unfold acquireLeadership at h
  split at h
  · cases h
  · rename_i hfree
    cases h
    refine ⟨rfl, rfl, rfl, fun row hrow => ⟨by rw [hrow]; rfl, ?_⟩⟩
    rw [hrow] at hfree
    simp only [Option.any_some, Bool.and_eq_true, decide_eq_true_eq, not_and_or, not_not] at hfree
    exact hfree.symm.imp_right not_lt.mp

/-- An acquisition that is refused writes nothing. -/
theorem acquireLeadership_none {controllerId : String}
    (h : acquireLeadership controllerId seconds now store = .ok (none, store')) : store' = store := by
  unfold acquireLeadership at h
  split at h <;> cases h
  rfl

/-- What a renewal writes, and what it found before. -/
theorem renewLeadership_eq_ok {lease renewed : ControllerLease}
    (h : renewLeadership lease seconds now store = .ok (renewed, store')) :
    renewed = ⟨lease.controllerId, lease.fenceToken, now + seconds⟩ ∧
      ∃ row, store.leadership = some row ∧ row.controllerId = lease.controllerId ∧
        row.fenceToken = lease.fenceToken ∧ now ≤ row.leaseExpiresAt ∧
        store'.leadership = some { row with leaseExpiresAt := now + seconds, updatedAt := now } := by
  unfold renewLeadership at h
  split at h
  · cases h
  · rename_i row hrow
    cases h
    obtain ⟨hsome, hholds⟩ := Option.filter_eq_some_iff.mp hrow
    simp only [holdsLeadership, Bool.and_eq_true, decide_eq_true_eq] at hholds
    exact ⟨rfl, row, hsome, hholds.1.1, hholds.1.2, hholds.2, rfl⟩

/-- A renewal with another token than the row's raises and changes nothing. -/
theorem renewLeadership_stale {lease : ControllerLease} {row : LeadershipRow} (hrow : store.leadership = some row)
    (htoken : lease.fenceToken ≠ row.fenceToken) :
    (Call.renewLeadership lease seconds).perform now store =
      (.error ⟨.leadershipLost, lease.controllerId⟩, store) := by
  have hnone : store.leadership.filter (holdsLeadership lease now) = none := by
    rw [hrow, Option.filter_some, if_neg]
    simp [holdsLeadership, htoken.symm]
  refine Call.perform_of_error ?_
  change renewLeadership lease seconds now store = _
  rw [renewLeadership, hnone]
  rfl

end SwarmStore

/-- An earlier lease of one controller has ended when another controller gets one. -/
def Issue.precedes (a b : Issue) : Prop :=
  a.lease.controllerId ≠ b.lease.controllerId → a.lease.leaseExpiresAt ≤ b.issuedAt

/-- What the row says about a lease handed out before. -/
structure Covers (n : Time) (row : LeadershipRow) (issue : Issue) : Prop where
  token : issue.lease.fenceToken ≤ row.fenceToken
  holder : issue.lease.controllerId = row.controllerId → issue.lease.leaseExpiresAt ≤ row.leaseExpiresAt
  other : issue.lease.controllerId ≠ row.controllerId → issue.lease.leaseExpiresAt ≤ n

/-- The leases handed out up to a time, and the row. -/
structure Exclusive (leaseSeconds : String → Time) (n : Time) (desk : Desk) : Prop where
  duration : ∀ issue ∈ desk.issued, issue.issuedAt ≤ n ∧
    issue.lease.leaseExpiresAt = issue.issuedAt + leaseSeconds issue.lease.controllerId
  covered : ∀ issue ∈ desk.issued, ∃ row, desk.store.leadership = some row ∧ Covers n row issue
  tokens : (desk.issued.filter (·.acquired)).Pairwise fun a b => a.lease.fenceToken < b.lease.fenceToken
  apart : desk.issued.Pairwise Issue.precedes

namespace Exclusive

variable {leaseSeconds : String → Time} {n now : Time} {desk : Desk}

/-- The clock may go on. -/
theorem later (h : Exclusive leaseSeconds n desk) (hclock : n ≤ now) : Exclusive leaseSeconds now desk := by
  refine ⟨fun issue hissue => ?_, fun issue hissue => ?_, h.tokens, h.apart⟩
  · obtain ⟨hissued, hexpires⟩ := h.duration issue hissue
    exact ⟨le_trans hissued hclock, hexpires⟩
  · obtain ⟨row, hrow, hcovers⟩ := h.covered issue hissue
    exact ⟨row, hrow, hcovers.token, hcovers.holder, fun hne => le_trans (hcovers.other hne) hclock⟩

/-- A lease handed out now keeps the invariant, if the row carries it, no token gets smaller and
all leases of others have ended. -/
theorem issue (h : Exclusive leaseSeconds now desk) {store' : SwarmStore} {row' : LeadershipRow}
    {issue : Issue} (hrow' : store'.leadership = some row') (hissued : issue.issuedAt = now)
    (hexpires : issue.lease.leaseExpiresAt = now + leaseSeconds issue.lease.controllerId)
    (hholder : row'.controllerId = issue.lease.controllerId) (htoken : row'.fenceToken = issue.lease.fenceToken)
    (hend : row'.leaseExpiresAt = issue.lease.leaseExpiresAt)
    (hold : ∀ old ∈ desk.issued, old.lease.fenceToken ≤ issue.lease.fenceToken ∧
      (issue.acquired = true → old.lease.fenceToken < issue.lease.fenceToken) ∧
      (old.lease.controllerId ≠ issue.lease.controllerId → old.lease.leaseExpiresAt ≤ now)) :
    Exclusive leaseSeconds now ⟨store', desk.issued ++ [issue]⟩ := by
  refine ⟨fun i hi => ?_, fun i hi => ⟨row', hrow', ?_⟩, ?_, ?_⟩
  · rcases List.mem_append.mp hi with hi | hi
    · exact h.duration i hi
    · rw [List.mem_singleton.mp hi]
      exact ⟨le_of_eq hissued, by rw [hexpires, hissued]⟩
  · rcases List.mem_append.mp hi with hi | hi
    · obtain ⟨htok, -, hother⟩ := hold i hi
      obtain ⟨hbefore, hduration⟩ := h.duration i hi
      refine ⟨htok.trans_eq htoken.symm, fun hsame => ?_, fun hne => hother (hholder ▸ hne)⟩
      rw [hend, hexpires, hduration, hsame.trans hholder]
      exact add_le_add_left hbefore _
    · rw [List.mem_singleton.mp hi]
      exact ⟨le_of_eq htoken.symm, fun _ => le_of_eq hend.symm, fun hne => absurd hholder.symm hne⟩
  · rw [List.filter_append, List.pairwise_append]
    refine ⟨h.tokens, List.Pairwise.filter _ (List.pairwise_singleton _ _), fun a ha b hb => ?_⟩
    obtain ⟨hb, hacquired⟩ := List.mem_filter.mp hb
    rw [List.mem_singleton.mp hb] at hacquired ⊢
    exact (hold a (List.mem_filter.mp ha).1).2.1 hacquired
  · rw [List.pairwise_append]
    refine ⟨h.apart, List.pairwise_singleton _ _, fun a ha b hb hne => ?_⟩
    rw [List.mem_singleton.mp hb] at hne ⊢
    rw [hissued]
    exact (hold a ha).2.2 hne

/-- Serving a request keeps the invariant. -/
theorem serve (h : Exclusive leaseSeconds n desk) (hclock : n ≤ now) (request : LeaderRequest) :
    Exclusive leaseSeconds now (desk.serve leaseSeconds (request, now)) := by
  have h := h.later hclock
  cases request with
  | acquire controllerId =>
    rw [Desk.serve]
    split
    · rename_i lease store hacquire
      obtain ⟨hid, hexpires, hrow', hfound⟩ := SwarmStore.acquireLeadership_some hacquire
      refine h.issue hrow' rfl (by rw [hexpires, hid]) hid.symm rfl rfl fun old hmem => ?_
      obtain ⟨row, hrow, hcovers⟩ := h.covered old hmem
      obtain ⟨htoken, hfree⟩ := hfound row hrow
      have hlt : old.lease.fenceToken < lease.fenceToken := by
        have := hcovers.token
        omega
      refine ⟨le_of_lt hlt, fun _ => hlt, fun hne => ?_⟩
      by_cases hheld : old.lease.controllerId = row.controllerId
      · rcases hfree with hsame | hended
        · exact absurd (hheld.trans (hsame.trans hid.symm)) hne
        · exact le_trans (hcovers.holder hheld) hended
      · exact hcovers.other hheld
    · rename_i store hrefused
      rw [SwarmStore.acquireLeadership_none hrefused]
      exact h
    · exact h
  | renew lease =>
    rw [Desk.serve]
    split
    · rename_i renewed store hrenew
      obtain ⟨rfl, row, hrow, hid, htoken, -, hrow'⟩ := SwarmStore.renewLeadership_eq_ok hrenew
      refine h.issue hrow' rfl rfl hid htoken rfl fun old hmem => ?_
      obtain ⟨row₀, hrow₀, hcovers⟩ := h.covered old hmem
      obtain rfl := Option.some.inj (hrow₀.symm.trans hrow)
      refine ⟨hcovers.token.trans_eq htoken, fun hacquired => Bool.noConfusion hacquired, fun hne => ?_⟩
      exact hcovers.other fun hsame => hne (hsame.trans hid)
    · exact h

/-- Serving requests in the order of a clock keeps the invariant. -/
theorem run {requests : List (LeaderRequest × Time)} (hclock : requests.Pairwise fun a b => a.2 ≤ b.2)
    (hstart : ∀ request ∈ requests, n ≤ request.2) (h : Exclusive leaseSeconds n desk) :
    ∃ n', Exclusive leaseSeconds n' (requests.foldl (Desk.serve leaseSeconds) desk) := by
  induction requests generalizing n desk with
  | nil => exact ⟨n, h⟩
  | cons request rest ih =>
    obtain ⟨hfirst, hrest⟩ := List.pairwise_cons.mp hclock
    exact ih hrest hfirst (h.serve (hstart request List.mem_cons_self) request.1)

end Exclusive

/-- The desk after requests, from a store and no lease handed out yet. -/
def leasesAfter (leaseSeconds : String → Time) (store : SwarmStore) (requests : List (LeaderRequest × Time)) :
    Desk := requests.foldl (Desk.serve leaseSeconds) ⟨store, []⟩

/-- Whatever is requested while the clock does not go back: acquisitions get increasing tokens,
a lease of one controller has ended when another controller gets one, so no two controllers
have a lease in force at one time, and a lease older than the last token cannot be renewed. -/
theorem leadership_exclusive (leaseSeconds : String → Time) (store : SwarmStore)
    (requests : List (LeaderRequest × Time)) (hclock : requests.Pairwise fun a b => a.2 ≤ b.2) :
    let desk := leasesAfter leaseSeconds store requests
    ((desk.issued.filter (·.acquired)).Pairwise fun a b => a.lease.fenceToken < b.lease.fenceToken) ∧
    (desk.issued.Pairwise fun a b => a.lease.controllerId ≠ b.lease.controllerId →
      a.lease.leaseExpiresAt ≤ b.issuedAt) ∧
    (∀ a ∈ desk.issued, ∀ b ∈ desk.issued, a.lease.controllerId ≠ b.lease.controllerId → ∀ t : Time,
      ¬ ((a.issuedAt ≤ t ∧ t < a.lease.leaseExpiresAt) ∧ b.issuedAt ≤ t ∧ t < b.lease.leaseExpiresAt)) ∧
    ∀ a ∈ desk.issued, ∀ b ∈ desk.issued, a.lease.fenceToken < b.lease.fenceToken → ∀ seconds now,
      (Call.renewLeadership a.lease seconds).perform now desk.store =
        (.error ⟨.leadershipLost, a.lease.controllerId⟩, desk.store) := by
  obtain ⟨n, h⟩ : ∃ n, Exclusive leaseSeconds n (leasesAfter leaseSeconds store requests) := by
    cases requests with
    | nil => exact ⟨0, by simp [leasesAfter], by simp [leasesAfter], List.Pairwise.nil, List.Pairwise.nil⟩
    | cons request rest =>
      refine Exclusive.run (n := request.2) hclock (fun r hr => ?_)
        ⟨by simp, by simp, List.Pairwise.nil, List.Pairwise.nil⟩
      rcases List.mem_cons.mp hr with rfl | hr
      · exact le_rfl
      · exact (List.pairwise_cons.mp hclock).1 r hr
  refine ⟨h.tokens, h.apart, fun a ha b hb hne t hboth => ?_, fun a ha b hb htoken seconds now => ?_⟩
  · have hcases : Issue.precedes a b ∨ Issue.precedes b a :=
      List.Pairwise.forall_of_forall_of_flip (R := fun a b => Issue.precedes a b ∨ Issue.precedes b a)
        (fun x hx => Or.inl fun hne => absurd rfl hne) (h.apart.imp Or.inl) (h.apart.imp Or.inr) ha hb
    rcases hcases with hab | hba
    · exact absurd (hab hne) (not_le.mpr (lt_of_le_of_lt hboth.2.1 hboth.1.2))
    · exact absurd (hba hne.symm) (not_le.mpr (lt_of_le_of_lt hboth.1.1 hboth.2.2))
  · obtain ⟨row, hrow, hcovers⟩ := h.covered b hb
    exact SwarmStore.renewLeadership_stale hrow (ne_of_lt (lt_of_lt_of_le htoken hcovers.token))

/-- One controller gets and renews a lease, another takes over when it ends, and the first one
cannot renew. -/
theorem leadership_exclusive_takeover :
    let desk := leasesAfter (fun _ => 30) .empty [(.acquire "a", 0), (.renew ⟨"a", 1, 30⟩, 10),
      (.acquire "b", 39), (.acquire "b", 40), (.renew ⟨"a", 1, 40⟩, 40)]
    desk.issued = [⟨⟨"a", 1, 30⟩, 0, true⟩, ⟨⟨"a", 1, 40⟩, 10, false⟩, ⟨⟨"b", 2, 70⟩, 40, true⟩] ∧
      (Call.renewLeadership ⟨"a", 1, 40⟩ 30).perform 40 desk.store =
        (.error ⟨.leadershipLost, "a"⟩, desk.store) := by
  intro desk
  have hissued : desk.issued =
      [⟨⟨"a", 1, 30⟩, 0, true⟩, ⟨⟨"a", 1, 40⟩, 10, false⟩, ⟨⟨"b", 2, 70⟩, 40, true⟩] := by
    decide +kernel
  refine ⟨hissued, ?_⟩
  have hstale := (leadership_exclusive (fun _ => 30) .empty [(.acquire "a", 0), (.renew ⟨"a", 1, 30⟩, 10),
    (.acquire "b", 39), (.acquire "b", 40), (.renew ⟨"a", 1, 40⟩, 40)] (by decide +kernel)).2.2.2
  exact hstale ⟨⟨"a", 1, 40⟩, 10, false⟩ (by rw [hissued]; decide) ⟨⟨"b", 2, 70⟩, 40, true⟩
    (by rw [hissued]; decide) (by decide) 30 40

end TPUSwarm
