import TPUSwarm.Fleet.System
import TPUSwarm.Store.Frames

/-!
# What a lease fences

The lease is renewed once in a cycle and not looked at again. Until it ends the row carries
it, since no other controller can take over. After that a controller may have been
superseded, and its cycle goes on all the same.
-/

namespace TPUSwarm

open Common Relation

variable {ι : Type} {site site' : FleetSite ι} {lease : ControllerLease}

/-- The leadership row carries the controller, the token and the end of a lease. -/
def Carries (lease : ControllerLease) (site : FleetSite ι) : Prop :=
  ∃ row, site.store.leadership = some row ∧ row.controllerId = lease.controllerId ∧
    row.fenceToken = lease.fenceToken ∧ row.leaseExpiresAt = lease.leaseExpiresAt

/-- Another controller has acquired leadership with a larger token, at a time when the lease had
ended. -/
def Superseded (lease : ControllerLease) (site : FleetSite ι) : Prop :=
  ∃ issue ∈ site.issued, issue.acquired = true ∧ issue.lease.controllerId ≠ lease.controllerId ∧
    lease.fenceToken < issue.lease.fenceToken ∧ lease.leaseExpiresAt ≤ issue.issuedAt ∧
      issue.issuedAt ≤ site.clock

/-- The row carries the lease, or its holder was superseded. -/
def Fenced (lease : ControllerLease) (site : FleetSite ι) : Prop := Carries lease site ∨ Superseded lease site

/-- Being superseded lasts. -/
theorem Superseded.mono (h : Superseded lease site) (hissued : site.issued ⊆ site'.issued)
    (hclock : site.clock ≤ site'.clock) : Superseded lease site' := by
  obtain ⟨issue, hissue, hacquired, hid, htoken, hended, hbefore⟩ := h
  exact ⟨issue, hissued hissue, hacquired, hid, htoken, hended, le_trans hbefore hclock⟩

/-- What leaves the row alone keeps a lease fenced. -/
theorem Fenced.mono (h : Fenced lease site) (hrow : site'.store.leadership = site.store.leadership)
    (hissued : site.issued ⊆ site'.issued) (hclock : site.clock ≤ site'.clock) : Fenced lease site' := by
  refine h.imp (fun hcarries => ?_) fun hsuperseded => hsuperseded.mono hissued hclock
  unfold Carries
  rw [hrow]
  exact hcarries

/-- A call that does not ask for leadership leaves the row alone. -/
theorem Call.perform_leadership {call : Call} (hcall : call.isLeadership = false) (now : Time)
    (store : SwarmStore) : (call.perform now store).2.leadership = store.leadership := by
  rcases call.perform_store now store with hsame | ⟨result, hrun⟩
  · rw [hsame]
  · have htable : StoreTable.leadership ∉ call.tables := by
      cases call <;> first | (cases hcall; done) | simp [Call.tables]
    exact Call.frame hrun htable

variable [DecidableEq ι]

namespace FleetSite

/-- Noting a call of one controller leaves the leases others renewed. -/
theorem renewed_noting (site : FleetSite ι) {i j : ι} (hij : i ≠ j) (now : Time) (call : Call)
    (outcome : Except PyError call.Result) : (site.noting j now call outcome).renewed i = site.renewed i := by
  unfold noting
  split
  · rfl
  · exact Function.update_of_ne hij _ _
  · rfl

/-- Noting a call that does not ask for leadership changes nothing. -/
theorem noting_other (site : FleetSite ι) (i : ι) (now : Time) (call : Call) (hcall : call.isLeadership = false)
    (outcome : Except PyError call.Result) : site.noting i now call outcome = site := by
  cases call <;> first | (cases hcall; done) | rfl

end FleetSite

variable {controllers : ι → TPUSwarmController}

/-- The controller is in a cycle in which it renewed a lease, and this lease is fenced. -/
structure Leads (controllers : ι → TPUSwarmController) (i : ι) (lease : ControllerLease) (site : FleetSite ι) :
    Prop where
  renewed : site.renewed i = some lease
  owner : lease.controllerId = (controllers i).controllerId
  fenced : Fenced lease site

/-- When a controller may issue an operation. -/
def FleetPermitted (controllers : ι → TPUSwarmController) (i : ι) : Operation → FleetSite ι → Prop
  | .store (.acquireLeadership controllerId _) now, site =>
    controllerId = (controllers i).controllerId ∧ ∃ t, now = some t ∧ t ≤ site.clock
  | .store (.renewLeadership lease _) now, site =>
    lease.controllerId = (controllers i).controllerId ∧ ∃ t, now = some t ∧ t ≤ site.clock
  | op, site => op.isEffect = true → ∃ lease, Leads controllers i lease site

/-- An operation outside of leadership leaves the row, the leases and the renewals alone. -/
theorem FleetExecutes.frame {i : ι} {op : Operation} {reply : op.Reply} (hop : op.isLeadership = false)
    (h : FleetExecutes i op site reply site') : site'.store.leadership = site.store.leadership ∧
      site'.issued = site.issued ∧ site'.renewed = site.renewed ∧ site.clock ≤ site'.clock := by
  cases h with
  | @store _ call now clock outcome store' hclock hperform =>
    rw [FleetSite.noting_other _ i _ call hop outcome]
    refine ⟨?_, rfl, rfl, hclock⟩
    have hrow := Call.perform_leadership hop (now.getD clock) site.store
    rw [hperform] at hrow
    exact hrow
  | listJobs hclock => exact ⟨rfl, rfl, rfl, hclock⟩
  | launch hclock => exact ⟨rfl, rfl, rfl, hclock⟩

/-- An operation outside of leadership keeps every controller leading. -/
theorem Leads.frame {i j : ι} {op : Operation} {reply : op.Reply} (hop : op.isLeadership = false)
    (hexec : FleetExecutes j op site reply site') (h : Leads controllers i lease site) :
    Leads controllers i lease site' := by
  obtain ⟨hrow, hissued, hrenewed, hclock⟩ := hexec.frame hop
  exact ⟨by rw [hrenewed]; exact h.renewed, h.owner,
    h.fenced.mono hrow (by rw [hissued]; exact List.Subset.refl _) hclock⟩

/-- An acquisition of another controller keeps a lease fenced: it waits for the end of the lease. -/
theorem Fenced.acquire {j : ι} {controllerId : String} {seconds now clock : Time}
    {outcome : Except PyError (Option ControllerLease)} {store' : SwarmStore}
    (hid : controllerId ≠ lease.controllerId) (hclock : site.clock ≤ clock) (hnow : now ≤ site.clock)
    (hperform : (Call.acquireLeadership controllerId seconds).perform now site.store = (outcome, store'))
    (h : Fenced lease site) :
    Fenced lease (FleetSite.noting { site with store := store', clock := clock } j now
      (.acquireLeadership controllerId seconds) outcome) := by
  rcases Call.perform_cases hperform with ⟨e, rfl, rfl⟩ | ⟨result, rfl, hrun⟩
  · exact h.mono rfl (List.Subset.refl _) hclock
  · cases result with
    | none =>
      have hsame : store' = site.store := SwarmStore.acquireLeadership_none hrun
      exact h.mono (congrArg SwarmStore.leadership hsame) (List.Subset.refl _) hclock
    | some new =>
      obtain ⟨hnew, -, -, hfound⟩ := SwarmStore.acquireLeadership_some hrun
      rcases h with ⟨row, hrow, howner, htoken, hend⟩ | hsuperseded
      · obtain ⟨hnext, hfree⟩ := hfound row hrow
        refine Or.inr ⟨⟨new, now, true⟩, List.mem_append_right _ List.mem_cons_self, rfl, hnew.trans_ne hid,
          ?_, ?_, le_trans hnow hclock⟩
        · rw [← htoken, hnext]
          exact Nat.lt_succ_self _
        · rw [← hend]
          exact hfree.resolve_left fun hsame => hid (hsame.symm.trans howner)
      · exact Or.inr (hsuperseded.mono (List.subset_append_left _ _) hclock)

/-- A renewal of another controller keeps a lease fenced: it fails while the row carries the lease. -/
theorem Fenced.renew {j : ι} {other : ControllerLease} {seconds now clock : Time}
    {outcome : Except PyError ControllerLease} {store' : SwarmStore}
    (hid : other.controllerId ≠ lease.controllerId) (hclock : site.clock ≤ clock)
    (hperform : (Call.renewLeadership other seconds).perform now site.store = (outcome, store'))
    (h : Fenced lease site) :
    Fenced lease (FleetSite.noting { site with store := store', clock := clock } j now
      (.renewLeadership other seconds) outcome) := by
  rcases Call.perform_cases hperform with ⟨e, rfl, rfl⟩ | ⟨result, rfl, hrun⟩
  · exact h.mono rfl (List.Subset.refl _) hclock
  · obtain ⟨-, row, hrow, howner, -⟩ := SwarmStore.renewLeadership_eq_ok hrun
    rcases h with ⟨carried, hcarried, hsame, -⟩ | hsuperseded
    · obtain rfl := Option.some.inj (hcarried.symm.trans hrow)
      exact absurd (howner.symm.trans hsame) hid
    · exact Or.inr (hsuperseded.mono (List.subset_append_left _ _) hclock)

/-- No operation of another controller ends a lead. -/
theorem Leads.other (hids : Function.Injective fun i => (controllers i).controllerId) {i j : ι} (hij : j ≠ i)
    {op : Operation} {reply : op.Reply} (hpermitted : FleetPermitted controllers j op site)
    (hexec : FleetExecutes j op site reply site') (h : Leads controllers i lease site) :
    Leads controllers i lease site' := by
  have hother : (controllers j).controllerId ≠ lease.controllerId := by
    rw [h.owner]
    exact hids.ne hij
  by_cases hop : op.isLeadership = false
  · exact h.frame hop hexec
  · cases hexec with
    | @store _ call now clock outcome store' hclock hperform =>
      refine ⟨(FleetSite.renewed_noting _ (Ne.symm hij) _ call outcome).trans h.renewed, h.owner, ?_⟩
      cases call with
      | acquireLeadership controllerId seconds =>
        obtain ⟨rfl, t, rfl, ht⟩ := hpermitted
        exact h.fenced.acquire hother hclock ht hperform
      | renewLeadership held seconds =>
        obtain ⟨hheld, t, rfl, ht⟩ := hpermitted
        exact h.fenced.renew (hheld.trans_ne hother) hclock hperform
      | _ => exact absurd rfl hop
    | listJobs => exact absurd rfl hop
    | launch => exact absurd rfl hop

/-- A controller that has renewed leads. -/
theorem Leads.of_renewed {i : ι} {held renewed : ControllerLease} {seconds now clock : Time}
    {store' : SwarmStore} (howner : held.controllerId = (controllers i).controllerId)
    (hrun : (Call.renewLeadership held seconds).run now site.store = .ok (renewed, store')) :
    Leads controllers i renewed (FleetSite.noting { site with store := store', clock := clock } i now
      (.renewLeadership held seconds) (.ok renewed)) := by
  obtain ⟨rfl, row, -, hid, htoken, -, hrow'⟩ := SwarmStore.renewLeadership_eq_ok hrun
  exact ⟨Function.update_self .., howner, Or.inl ⟨_, hrow', hid, htoken, rfl⟩⟩

end TPUSwarm
