import Quorate.Proofs.Call.Request

/-!
# Calls that are granted while others are under way

Other calls may hold the places of their servers, so a call that nothing comes in between may
have to wait or be refused. If it is granted none the less, then its place was free, and the
call was run like one in a calm ensemble (`Reconfiguration.ends_of_leads`). The request of a
session is granted by the server that `leaderOrElect` comes to (`Routed.granted_by_leader`).
-/

namespace Quorate

/-- Nothing keeps a server from running a request to its end at once, but for another one that it
runs already. -/
structure Ensemble.Unhindered (seed : Roster) (e : Ensemble) : Prop where
  link : e.link = []
  manned : e.log.Manned
  tracked : e.log.Tracked seed
  ordered : e.log.Ordered

theorem Ensemble.Unhindered.prepared {seed : Roster} {e : Ensemble} {id : ServerId} {s : Server}
    (h : e.Unhindered seed) (hs : e.server id = .ok s) (hfree : s.inFlight = none) :
    e.Prepared seed id s where
  found := hs
  own := by
    obtain ⟨a, ha, hreplica⟩ := Option.bind_eq_some_iff.1 (server_eq_ok_iff.1 hs)
    exact h.manned.named id a ha s hreplica
  free := hfree
  link := h.link
  tracked := h.tracked
  ordered := h.ordered

variable {seed : Roster} {e e' : Ensemble} {id : ServerId} {s : Server} {request : Request}
  {now n : Nat}

namespace Reconfiguration

theorem refused_of_busy (hs : e.server id = .ok s) (hon : s.settings.enabled = true)
    (hlead : e.log.leader = some id) {base : Version} (hbusy : s.inFlight = some base)
    {result : Except Fault Roster}
    (hleads : Progress.Leads (step now) n (.going (start id request), e) (.done result, e')) :
    result = .error .inProgress := by
  have hask : ask ⟨id, request, .asking s.settled⟩ s.settled s e =
      if request.expected = some base then (.going ⟨id, request, .parked s.settled⟩, e)
      else (.done (.error .inProgress), e) := by
    rw [ask, if_neg (not_not.2 hlead), hbusy]
  split at hask
  · obtain ⟨_, hparked⟩ := hleads.rest (leads_of_ask now hs hon hask)
    refine absurd ?_ hparked.not_waits
    simp only [step, hs, lt_irrefl, if_false]
  · exact (hleads.unique (leads_of_ask now hs hon hask)).1

/-- A call that is done ended as in a calm ensemble, unless its server ran another one. -/
theorem ends_or_busy (h : e.Unhindered seed) (hcounter : e.log.counter ≠ 0xFFFFFFFF)
    (hs : e.server id = .ok s) {result : Except Fault Roster}
    (hleads : Progress.Leads (step now) n (.going (start id request), e) (.done result, e')) :
    Ends e id s request result e' ∨ result = .error .inProgress := by
  cases hfree : s.inFlight with
  | none =>
      obtain ⟨_, _, hends, _, _, hrun⟩ :=
        exists_ends (h.prepared hs hfree) hcounter request now
      obtain ⟨rfl, rfl⟩ := hleads.unique hrun
      exact Or.inl hends
  | some base =>
      cases hon : s.settings.enabled with
      | false =>
          obtain ⟨rfl, rfl⟩ := hleads.unique (leads_of_disabled now hs hon request)
          exact Or.inl (.disabled hon)
      | true =>
          by_cases hlead : e.log.leader = some id
          · exact Or.inr (refused_of_busy hs hon hlead hfree hleads)
          · obtain ⟨rfl, rfl⟩ := hleads.unique (leads_of_following now hs hon hlead request)
            exact Or.inl (.following hon hlead)

theorem ends_of_leads (h : e.Unhindered seed) (hcounter : e.log.counter ≠ 0xFFFFFFFF)
    {next : Roster}
    (hleads : Progress.Leads (step now) n (.going (start id request), e) (.done (.ok next), e')) :
    ∃ s, e.server id = .ok s ∧ Ends e id s request (.ok next) e' := by
  cases hs : e.server id with
  | error fault =>
      have hmissing : Progress.Leads (step now) 1 (.going (start id request), e)
          (.done (.error fault), e) := by
        refine Progress.leads_one ?_
        simp only [step, start, hs]
      cases (hleads.unique hmissing).1
  | ok s => exact ⟨s, rfl, (ends_or_busy h hcounter hs hleads).resolve_right (by simp)⟩

end Reconfiguration

namespace Routed

theorem granted_of_conclude {c : Routed} {result : Except Fault Roster} {next : Roster}
    (h : Progress.Leads (step now) n (c.conclude result e) (.done (.ok next), e')) :
    result = .ok next ∧ ∃ sessions, e' = { e with sessions } := by
  cases result with
  | error fault =>
      cases h.eq_of_done
  | ok r =>
      unfold conclude at h
      dsimp only at h
      split at h
      · cases h.eq_of_done
      · cases h.eq_of_done
        exact ⟨rfl, _, rfl⟩

theorem granted_of_forward {c : Routed} {leader : ServerId} {next : Roster}
    (h : Progress.Leads (step now) n (c.forward leader e, e) (.done (.ok next), e')) :
    ∃ m e'', Progress.Leads (Reconfiguration.step now) m
        (.going (.start leader c.request), e) (.done (.ok next), e'') ∧
      ∃ sessions, e' = { e'' with sessions } := by
  unfold forward at h
  cases hs : e.server leader with
  | error fault =>
      rw [hs] at h
      cases h.eq_of_done
  | ok s =>
      rw [hs] at h
      obtain ⟨m, _, result, e'', hleads, hconclude⟩ := h.unwrap (c.step_forwarded now)
      obtain ⟨rfl, hsessions⟩ := granted_of_conclude hconclude
      exact ⟨m, e'', hleads, hsessions⟩

theorem granted_of_redirect {c : Routed} {result : Except Fault Roster} {next : Roster}
    (hnot : ∀ leader, result ≠ .error (.notLeader leader))
    (h : Progress.Leads (step now) n (c.redirect result e) (.done (.ok next), e')) :
    result = .ok next ∧ ∃ sessions, e' = { e with sessions } :=
  granted_of_conclude (c.redirect_of_ne_notLeader hnot e ▸ h)

/-- A request that another server than the leader has sent away is granted by the leader, or by
the winner of an election if there is none. -/
theorem granted_of_sent {c : Routed} {next : Roster} (hother : e.log.leader ≠ some c.origin)
    (h : Progress.Leads (step now) n (c.redirect (.error (.notLeader e.log.leader)) e)
      (.done (.ok next), e')) :
    ∃ leader e₁, e.leaderOrElect = (.ok leader, e₁) ∧ ∃ m e₂,
      Progress.Leads (Reconfiguration.step now) m (.going (.start leader c.request), e₁)
        (.done (.ok next), e₂) ∧ ∃ sessions, e' = { e₂ with sessions } := by
  cases hleader : e.log.leader with
  | some leader =>
      have hled : e.leaderOrElect = (.ok leader, e) := by
        rw [Ensemble.leaderOrElect, CommitLog.leaderOrElect, hleader]
      have hforward : leader ≠ c.origin := fun heq => hother (heq ▸ hleader)
      rw [hleader, redirect, if_pos hforward] at h
      exact ⟨leader, e, hled, granted_of_forward h⟩
  | none =>
      rw [hleader] at h
      cases h with
      | next hstep hrest =>
          unfold step at hstep
          dsimp only at hstep
          split at hstep
          · cases hstep
            cases hrest.eq_of_done
          · rename_i leader e₁ hled
            cases hstep
            exact ⟨leader, e₁, hled, granted_of_forward hrest⟩

/-- A request of a session that is granted is granted by the server that `leaderOrElect` comes
to. -/
theorem granted_by_leader (h : e.Unhindered seed) (hcounter : e.log.counter ≠ 0xFFFFFFFF)
    {session : SessionId} {next : Roster}
    (hgranted : e.request now session request = (.done (.ok next), e')) :
    ∃ leader e₁, e.leaderOrElect = (.ok leader, e₁) ∧ ∃ m e₂,
      Progress.Leads (Reconfiguration.step now) m (.going (.start leader request), e₁)
        (.done (.ok next), e₂) ∧ ∃ sessions, e' = { e₂ with sessions } := by
  unfold Ensemble.request at hgranted
  cases hstart : start e session request with
  | error fault =>
      rw [hstart] at hgranted
      cases hgranted
  | ok c =>
  rw [hstart] at hgranted
  obtain ⟨connected, _, hstart⟩ := bind_eq_ok_iff.1 hstart
  obtain ⟨s, hs, hstart⟩ := bind_eq_ok_iff.1 hstart
  cases hstart
  obtain ⟨n, hleads⟩ := Progress.exists_leads_of_burst hgranted
  obtain ⟨m, _, result, e₂, hdirect, hredirect⟩ :=
    hleads.unwrap ((opening session connected request).step_direct now)
  by_cases hlead : e.log.leader = some connected.server
  · have hled : e.leaderOrElect = (.ok connected.server, e) := by
      rw [Ensemble.leaderOrElect, CommitLog.leaderOrElect, hlead]
    have hnot (leader : Option ServerId) : result ≠ .error (.notLeader leader) := by
      rintro rfl
      rcases Reconfiguration.ends_or_busy h hcounter hs hdirect with hends | hbusy
      · exact hends.ne_notLeader hlead leader rfl
      · cases hbusy
    obtain ⟨rfl, hsessions⟩ := granted_of_redirect hnot hredirect
    exact ⟨_, e, hled, m, e₂, hdirect, hsessions⟩
  · cases hon : s.settings.enabled with
    | false =>
        obtain ⟨rfl, _⟩ := (Reconfiguration.leads_of_disabled now hs hon request).unique hdirect
        have hnot (leader : Option ServerId) :
            (.error .disabled : Except Fault Roster) ≠ .error (.notLeader leader) := by simp
        cases (granted_of_redirect hnot hredirect).1
    | true =>
        obtain ⟨rfl, rfl⟩ :=
          (Reconfiguration.leads_of_following now hs hon hlead request).unique hdirect
        exact granted_of_sent (c := opening session connected request) hlead hredirect

end Routed

end Quorate
