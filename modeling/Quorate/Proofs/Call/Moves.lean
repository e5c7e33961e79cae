import Quorate.Proofs.Call.Reconfiguration

/-!
# The steps of a reconfiguration

A step of a call appends nothing to the log and settles with what was recorded before, or it
appends the record of a proposal that was checked against a roster of the log and settles with
that one, or it fails (`moves_of_step`). It fails before the call has recorded anything, or
because it misses what its record made (`Missed`): the server that has to look that up does not
keep it any more, or the record made nothing.

Between the commit of a record and the look-up anything may happen. What the look-up finds was
put in effect by the very entry of the record, since stamps ascend (`grants_of_landed`).
-/

namespace Quorate.Reconfiguration

variable {seed : Roster} {e : Ensemble} {c : Reconfiguration} {now : Nat}
  {recorded : List Nat}

/-- The server of a submission that is committed does not hold the roster of the record. -/
def Missed (c : Reconfiguration) (e : Ensemble) : Prop :=
  ∃ current submission stamp deadline t, c.stage = .submitting current submission ∧
    submission.stage = .landing stamp deadline ∧
    e.log.replica? submission.server = some t ∧ t.view.committedBy? stamp = none

/-- What a step of a call does to the log, and what the call has to show for it. -/
inductive Moves (seed : Roster) (e : Ensemble) (c : Reconfiguration) (recorded : List Nat)
    (p : Progress Reconfiguration (Except Fault Roster) × Ensemble) : Prop
  | quiet (onward : e.Onward seed p.2) (entries : p.2.log.entries = e.log.entries)
      (goes : ¬ p.1.Fails) (settles : Settles seed p.2.log c.request recorded p.1)
  | committed (proposal : RosterProposal) (current : Roster) (sender : ServerId)
      (fresh : recorded = []) (onward : e.Onward seed p.2)
      (member : current ∈ rosters seed e.log.entries)
      (vetted : proposal.Vetted c.request current)
      (entries : p.2.log.entries =
        e.log.entries ++ [⟨e.log.nextStamp, .reconfigure proposal, sender⟩])
      (goes : ¬ p.1.Fails)
      (settles : Settles seed p.2.log c.request [e.log.entries.length] p.1)
  | failed (onward : e.Onward seed p.2) (entries : p.2.log.entries = e.log.entries)
      (fails : p.1.Fails) (lost : recorded = [] ∨ c.Missed e)

theorem Moves.onward {p : Progress Reconfiguration (Except Fault Roster) × Ensemble}
    (h : Moves seed e c recorded p) : e.Onward seed p.2 := by
  cases h with
  | quiet onward _ _ _ => exact onward
  | committed _ _ _ _ onward _ _ _ _ _ => exact onward
  | failed onward _ _ _ => exact onward

theorem Moves.gains {p : Progress Reconfiguration (Except Fault Roster) × Ensemble}
    (h : Moves seed e c recorded p) : Gains seed e.log.entries p.2.log.entries := by
  cases h with
  | quiet _ entries _ _ => exact gains_of_eq seed entries
  | committed _ _ _ _ _ _ _ entries _ _ => exact entries ▸ gains_concat seed _ _
  | failed _ entries _ _ => exact gains_of_eq seed entries

theorem Moves.chain {p : Progress Reconfiguration (Except Fault Roster) × Ensemble}
    (h : Moves seed e c recorded p) (he : e.Sound seed)
    (hepoch : e.log.roster.version.epoch ≠ 0xFFFFFFFF)
    (hcounter : e.log.roster.version.counter ≠ 0xFFFFFFFF) :
    (rosters seed p.2.log.entries).IsChain Roster.Succeeds := by
  cases h with
  | quiet _ entries _ _ => exact entries ▸ he.chain
  | failed _ entries _ _ => exact entries ▸ he.chain
  | committed proposal current _ _ _ member vetted entries _ _ =>
      rw [entries, isChain_rosters_concat_iff]
      refine ⟨he.chain, fun next hnext => ?_⟩
      have hcurrent := vetted.current_eq he.chain member (rosterAfter_mem_rosters seed _) hnext
      have hroster : current = e.log.roster := hcurrent.trans he.tracked.derived.symm
      obtain ⟨q, hq, happly⟩ := Record.successor?_eq_some_iff.1 hnext
      cases hq
      rw [← hcurrent] at happly ⊢
      apply vetted.succeeds (RosterProposal.applyTo_eq_ok_iff.2 happly)
      · rw [hroster]
        exact hepoch
      · rw [hroster]
        exact hcounter

/-- A call that fails before it has committed anything. -/
theorem moves_done_error {e' : Ensemble} (honward : e.Onward seed e')
    (hentries : e'.log.entries = e.log.entries) (fault : Fault) :
    Moves seed e c [] (.done (.error fault), e') :=
  .failed honward hentries ⟨fault, rfl⟩ (Or.inl rfl)

theorem moves_giveUp {e' : Ensemble} (honward : e.Onward seed e')
    (hentries : e'.log.entries = e.log.entries) (server : ServerId) (fault : Fault) :
    Moves seed e c [] (giveUp e' server fault) :=
  moves_done_error (honward.still (Ensemble.still_release seed e' server)) hentries fault

theorem moves_to_asking (ticket : Nat) :
    Moves seed e c [] (.going { c with stage := .asking ticket }, e) :=
  .quiet (Ensemble.still_refl seed e).onward rfl nofun ⟨rfl, rfl⟩

theorem moves_ask (he : e.Sound seed) {s : Server} (hs : e.server c.server = .ok s)
    (ticket : Nat) : Moves seed e c [] (c.ask ticket s e) := by
  have hrefl := (Ensemble.still_refl seed e).onward
  have hclaim := (Ensemble.still_claim seed e c.server s.current.version).onward
  unfold ask
  split
  · exact moves_done_error hrefl rfl _
  cases s.inFlight with
  | some base =>
      dsimp only
      split
      · exact .quiet hrefl rfl nofun ⟨rfl, rfl⟩
      · exact moves_done_error hrefl rfl _
  | none =>
      dsimp only
      cases hexamine : examine c.request s.current with
      | error fault => exact moves_giveUp hclaim rfl c.server fault
      | ok pair =>
          obtain ⟨change, next⟩ := pair
          have hmem := he.tracked.current_mem_rosters he.ordered.ascending
            (Ensemble.server_eq_ok_iff.1 hs)
          exact .quiet hclaim rfl nofun ⟨rfl, rfl, hmem, hexamine⟩

theorem moves_weigh (he : e.Sound seed) {current candidate : Roster} {change : Change}
    (hmem : current ∈ rosters seed e.log.entries)
    (hexamine : examine c.request current = .ok (change, candidate)) {s : Server}
    (hs : e.server c.server = .ok s) :
    Moves seed e c [] (c.weigh now current change candidate s e) := by
  obtain ⟨hstill, htransit⟩ := Ensemble.still_takeTransit seed e
  have hhonest : e.takeTransit.1.passage.Honest := by
    rcases htransit with heq | hin
    · rw [heq]
      exact trivial
    · exact he.honest _ hin
  unfold weigh
  dsimp only
  split
  · refine .quiet hstill.onward hstill.log.entries nofun ⟨rfl, ?_, ?_, ?_, rfl, hhonest⟩
    · exact hstill.log.stays c.server (Ensemble.contains_of_server hs)
    · exact hstill.log.entries ▸ hmem
    · exact ⟨change, candidate, hexamine, rfl⟩
  · exact moves_giveUp (Ensemble.still_refl seed e).onward rfl c.server _

/-- A call that follows its roster up, or is done with that, still has it to show. -/
theorem settles_follow {next : Roster} {n : Nat}
    {q : Progress FollowUp (Except Fault Unit) × Ensemble}
    (hin : q.2.log.attached.contains c.server = true)
    (hg : Grants seed q.2.log.entries c.request n next)
    (hq : q.1 = .done (.ok ()) ∨ ∃ f : FollowUp, q.1 = .going f ∧ f.next = next) :
    (c.follow next q).2 = q.2 ∧ ¬ (c.follow next q).1.Fails ∧
      Settles seed q.2.log c.request [n] (c.follow next q).1 := by
  obtain ⟨progress, e'⟩ := q
  rcases hq with rfl | ⟨f, rfl, rfl⟩
  · exact ⟨rfl, nofun, n, rfl, hg⟩
  · exact ⟨rfl, nofun, rfl, hin, n, rfl, hg⟩

theorem settles_submit_ok (current : Roster) {next : Roster} (ht : e.log.Tracked seed)
    (hin : e.log.attached.contains c.server = true) {n : Nat}
    (hg : Grants seed e.log.entries c.request n next) :
    Ensemble.Still seed e (c.submit current (.done (.ok next), e)).2 ∧
      ¬ (c.submit current (.done (.ok next), e)).1.Fails ∧
      Settles seed (c.submit current (.done (.ok next), e)).2.log c.request [n]
        (c.submit current (.done (.ok next), e)).1 := by
  have hrelease := Ensemble.still_release seed e c.server
  obtain ⟨s, hs⟩ := (hrelease.log.tracked ht).exists_replica (hrelease.log.stays c.server hin)
  obtain ⟨hstart, hstarted⟩ :=
    FollowUp.start_cases seed (Ensemble.server_eq_ok_iff.2 hs) current next
  have hstill := hrelease.trans hstart
  have hfollow := settles_follow (c := c) (hstill.log.stays c.server hin)
    (hstill.log.entries ▸ hg) (hstarted.imp_right fun ⟨_, hgoing⟩ => ⟨_, hgoing, rfl⟩)
  have heq : c.submit current (.done (.ok next), e) =
      c.follow next (FollowUp.start c.server current next (e.adjust c.server .release)) := rfl
  rw [heq, hfollow.1]
  exact ⟨hstill, hfollow.2⟩

theorem moves_following {followUp : FollowUp}
    (hstage : c.stage = .following followUp) (hsound : c.Sound seed e.log recorded) :
    Moves seed e c recorded (c.follow followUp.next (followUp.step e)) := by
  rw [Sound, hstage] at hsound
  obtain ⟨hin, n, rfl, hg⟩ := hsound
  obtain ⟨honward, hentries, hstepped⟩ := FollowUp.step_cases seed followUp e
  obtain ⟨hlog, hgoes, hsettles⟩ := settles_follow (c := c) (honward.log.stays c.server hin)
    (hentries ▸ hg) (hstepped.imp_right fun ⟨_, hgoing⟩ => ⟨_, hgoing, rfl⟩)
  exact .quiet (hlog ▸ honward) (hlog ▸ hentries) hgoes (hlog ▸ hsettles)

/-- What is looked up under the stamp of a record was put in effect by that record. -/
theorem grants_of_landed (he : e.Sound seed) {request : Request} {current next : Roster}
    {submission : Submission} (hmem : current ∈ rosters seed e.log.entries)
    (hvetted : submission.proposal.Vetted request current) {stamp : Stamp} {n : Nat}
    {sender : ServerId}
    (hget : e.log.entries[n]? = some ⟨stamp, .reconfigure submission.proposal, sender⟩)
    {t : Server} (ht : e.log.replica? submission.server = some t)
    (hnext : t.view.committedBy? stamp = some next) :
    Grants seed e.log.entries request n next := by
  have hasc := he.ordered.ascending
  obtain ⟨prev, hinstalls⟩ :=
    hasc.installs_of_mem hget (he.tracked.mem_rosterHistory_of_committedBy? hasc ht hnext)
  obtain ⟨hprev, a, ha, hsuccessor⟩ := hinstalls
  cases hget.symm.trans ha
  obtain ⟨p, hp, _, _, hmembers⟩ := Record.successor?_eq_some_iff.1 hsuccessor
  cases hp
  have hin : prev ∈ rosters seed e.log.entries := hprev ▸ rosterAfter_take_mem_rosters seed _ n
  rw [hvetted.current_eq he.chain hmem hin hsuccessor] at hvetted
  exact ⟨prev, _, ⟨hprev, _, ha, hsuccessor⟩, hvetted, hmembers⟩

def landing (c : Reconfiguration) (current : Roster) (submission : Submission) (stamp : Stamp)
    (deadline : Nat) : Reconfiguration :=
  { c with
    stage := .submitting current { submission with stage := .landing stamp deadline } }

/-- Once its record is committed and applied, a call looks up what that made. -/
theorem step_of_landing {current : Roster} {submission : Submission} {stamp : Stamp}
    {deadline : Nat} (hstage : c.stage = .submitting current submission)
    (hlanding : submission.stage = .landing stamp deadline) {s t : Server}
    (hs : e.server c.server = .ok s) (ht : e.server submission.server = .ok t)
    (hle : stamp ≤ t.view.applied) (now : Nat) :
    c.step now e = some (c.submit current (.done (submission.landed t stamp), e)) := by
  simp only [step, hs, hstage, Submission.step, ht, hlanding, hle, if_true, Option.map_some]

theorem step_landing {current : Roster} {submission : Submission} {stamp : Stamp}
    {deadline : Nat} {s t : Server} (hs : e.server c.server = .ok s)
    (ht : e.server submission.server = .ok t) (hle : stamp ≤ t.view.applied) (now : Nat) :
    (c.landing current submission stamp deadline).step now e =
      some ((c.landing current submission stamp deadline).submit current
        (.done (submission.landed t stamp), e)) :=
  @step_of_landing e (c.landing current submission stamp deadline) current
    { submission with stage := .landing stamp deadline } stamp deadline rfl rfl s t hs ht hle now

theorem landed_of_none {submission : Submission} {t : Server} {stamp : Stamp}
    (h : t.view.committedBy? stamp = none) :
    submission.landed t stamp =
      .error (.staleVersion submission.proposal.base t.current.version) := by
  rw [Submission.landed, h]

theorem moves_landing (he : e.Sound seed) {current : Roster} {submission : Submission}
    (hstage : c.stage = .submitting current submission) {stamp : Stamp} {deadline : Nat}
    (hlanding : submission.stage = .landing stamp deadline)
    (hsound : c.Sound seed e.log recorded)
    {p : Progress Reconfiguration (Except Fault Roster) × Ensemble}
    (h : c.step now e = some p) : Moves seed e c recorded p := by
  rw [Sound, hstage] at hsound
  obtain ⟨hin, hmem, hvetted, hshows⟩ := hsound
  rw [Submission.Shows, hlanding] at hshows
  obtain ⟨⟨t, ht, hle⟩, n, sender, rfl, hget⟩ := hshows
  obtain ⟨s, hs⟩ := Ensemble.exists_server he.tracked hin
  rw [step_of_landing hstage hlanding hs (Ensemble.server_eq_ok_iff.2 ht) hle] at h
  cases h
  cases hnext : t.view.committedBy? stamp with
  | none =>
      rw [landed_of_none hnext]
      exact .failed (Ensemble.still_release seed e c.server).onward rfl ⟨_, rfl⟩
        (Or.inr ⟨current, submission, stamp, deadline, t, hstage, hlanding, ht, hnext⟩)
  | some next =>
      have hlanded : submission.landed t stamp = .ok next := by
        rw [Submission.landed, hnext]
      obtain ⟨hstill, hgoes, hsettles⟩ := settles_submit_ok current he.tracked hin
        (grants_of_landed he hmem hvetted hget ht hnext)
      rw [hlanded]
      exact .quiet hstill.onward hstill.log.entries hgoes hsettles

theorem moves_commit (he : e.Sound seed) {current : Roster} {submission : Submission}
    (deadline : Nat) (hin : e.log.attached.contains c.server = true)
    (hmem : current ∈ rosters seed e.log.entries)
    (hvetted : submission.proposal.Vetted c.request current)
    (hlead : e.log.leader = some submission.server)
    (hpropose : e.log.propose submission.server (.reconfigure submission.proposal) =
      (.ok e.log.nextStamp, (e.log.append e.log.nextStamp
        (.reconfigure submission.proposal) submission.server).deliver)) :
    Moves seed e c []
      (.going (c.landing current submission e.log.nextStamp deadline),
        { e with
          log := (e.log.propose submission.server (.reconfigure submission.proposal)).2 }) := by
  have honward := CommitLog.onward_propose seed e.log submission.server
    (.reconfigure submission.proposal)
  rw [hpropose] at honward ⊢
  have honline : (e.log.append e.log.nextStamp (.reconfigure submission.proposal)
      submission.server).deliver.isOnline submission.server = true := by
    rw [CommitLog.isOnline_deliver]
    exact he.tracked.led submission.server hlead
  have happlied := (honward.tracked he.tracked).applied honline
    (List.mem_append_right _ (List.mem_singleton_self _))
  exact .committed submission.proposal current submission.server rfl
    (Ensemble.onward_of_log honward) hmem hvetted rfl nofun ⟨rfl, honward.stays c.server hin,
      mem_rosters_of_grown honward.turn.entries_grow hmem, hvetted, happlied,
      e.log.entries.length, submission.server, rfl, List.getElem?_concat_length⟩

theorem moves_sending (he : e.Sound seed) {current : Roster} {submission : Submission}
    (hstage : c.stage = .submitting current submission) {passage : Passage}
    {arrival deadline : Nat} (hsending : submission.stage = .sending passage arrival deadline)
    (hsound : c.Sound seed e.log recorded) {s : Server} (hs : e.server c.server = .ok s)
    {p : Progress Reconfiguration (Except Fault Roster) × Ensemble}
    (h : c.step now e = some p) : Moves seed e c recorded p := by
  rw [Sound, hstage] at hsound
  obtain ⟨hin, hmem, hvetted, hshows⟩ := hsound
  rw [Submission.Shows, hsending] at hshows
  obtain ⟨rfl, hhonest⟩ := hshows
  have hrefl := (Ensemble.still_refl seed e).onward
  rw [step, hs, hstage] at h
  obtain ⟨q, hq, rfl⟩ := Option.map_eq_some_iff.1 h
  cases ht : e.server submission.server with
  | error fault =>
      rw [Submission.step, ht] at hq
      cases hq
      exact moves_giveUp hrefl rfl c.server fault
  | ok t =>
      rw [Submission.step, ht, hsending] at hq
      dsimp only at hq
      split at hq
      · cases hq
        rcases Submission.arrive_cases seed submission now e t hhonest with
          ⟨fault, e', heq, honward, hentries⟩ | ⟨until', hlead, hpropose, heq⟩
        · rw [heq]
          exact moves_giveUp honward hentries c.server fault
        · rw [heq]
          exact moves_commit he until' hin hmem hvetted hlead hpropose
      · split at hq <;> cases hq
        exact moves_giveUp hrefl rfl c.server _

theorem moves_of_no_server (he : e.Sound seed) (hsound : c.Sound seed e.log recorded)
    {fault : Fault} (hs : e.server c.server = .error fault) :
    Moves seed e c recorded (.done (.error fault), e) := by
  have hgone : ¬ e.log.attached.contains c.server = true := by
    intro hin
    obtain ⟨s, hok⟩ := Ensemble.exists_server he.tracked hin
    cases hs.symm.trans hok
  have hrecorded : recorded = [] := by
    unfold Sound at hsound
    split at hsound
    · exact hsound
    · exact hsound
    · exact hsound
    · exact hsound.1
    · exact absurd hsound.1 hgone
    · exact absurd hsound.1 hgone
  rw [hrecorded]
  exact moves_done_error (Ensemble.still_refl seed e).onward rfl fault

/-- A step of a call records nothing, or the entry that it appends, unless it fails. -/
theorem moves_of_step (he : e.Sound seed) (hsound : c.Sound seed e.log recorded)
    {p : Progress Reconfiguration (Except Fault Roster) × Ensemble}
    (h : c.step now e = some p) : Moves seed e c recorded p := by
  have hrefl := (Ensemble.still_refl seed e).onward
  cases hs : e.server c.server with
  | error fault =>
      rw [step, hs] at h
      cases h
      exact moves_of_no_server he hsound hs
  | ok s =>
      cases hstage : c.stage with
      | entering =>
          rw [Sound, hstage] at hsound
          subst hsound
          rw [step, hs, hstage] at h
          dsimp only at h
          split at h <;> cases h
          · exact moves_to_asking s.settled
          · exact moves_done_error hrefl rfl .disabled
      | asking ticket =>
          rw [Sound, hstage] at hsound
          subst hsound
          rw [step, hs, hstage] at h
          cases h
          exact moves_ask he hs ticket
      | parked ticket =>
          rw [Sound, hstage] at hsound
          subst hsound
          rw [step, hs, hstage] at h
          dsimp only at h
          split at h <;> cases h
          exact moves_to_asking s.settled
      | weighing current change candidate =>
          rw [Sound, hstage] at hsound
          obtain ⟨rfl, hmem, hexamine⟩ := hsound
          rw [step, hs, hstage] at h
          cases h
          exact moves_weigh he hmem hexamine hs
      | submitting current submission =>
          cases hsub : submission.stage with
          | sending passage arrival deadline =>
              exact moves_sending he hstage hsub hsound hs h
          | landing stamp deadline => exact moves_landing he hstage hsub hsound h
      | following followUp =>
          rw [step, hs, hstage] at h
          cases h
          exact moves_following hstage hsound

end Quorate.Reconfiguration
