import Quorate.Proofs.CommitLog.Muster
import Quorate.Proofs.Call.Moves
import Quorate.Proofs.Ensemble.Calm
import Quorate.Proofs.Progress

/-!
# How a reconfiguration ends

A call does not have to wait if its server is `Prepared`, as every server of a calm ensemble
is: the place for a proposal is free, the record is at the log at once, and the server that
commits it has applied it already. So a reconfiguration that nothing comes in between runs to
an end in a few steps (`exists_ends`), and `Ends` lists what it can come to, with the ensemble
that it leaves. The answer is a roster in one case only, and every case but that one leaves the
log and the views as they were.
-/

namespace Quorate

namespace FollowUp

/-- The ensemble after a whole follow-up. -/
def complete (server : ServerId) (prev next : Roster) (e : Ensemble) : Ensemble :=
  match e.server server with
  | .error _ => e
  | .ok s =>
    if next.version ≤ s.followed then e
    else
      let e := e.adjust server fun s => { s with followed := next.version }
      if !next.isParticipant server then
        ({ e with log := e.log.resign server } : Ensemble).elect.2.push next
      else if 0 < prev.participantChanges next then
        { e with log := (e.log.establish server).2 }.push next
      else e.push next

end FollowUp

namespace Ensemble

/-- Nothing keeps a server from running a request to its end at once. -/
structure Prepared (seed : Roster) (e : Ensemble) (id : ServerId) (s : Server) : Prop where
  found : e.server id = .ok s
  own : s.settings.id = id
  free : s.inFlight = none
  link : e.link = []
  tracked : e.log.Tracked seed
  ordered : e.log.Ordered

theorem Calm.prepared {seed : Roster} {e : Ensemble} {id : ServerId} {s : Server}
    (h : e.Calm seed) (hs : e.server id = .ok s) : e.Prepared seed id s where
  found := hs
  own := by
    rw [(h.idle id s (server_eq_ok_iff.1 hs)).1]
    rfl
  free := (h.idle id s (server_eq_ok_iff.1 hs)).2
  link := h.link
  tracked := h.tracked
  ordered := h.ordered

def claimed (e : Ensemble) (id : ServerId) (s : Server) : Ensemble :=
  e.adjust id (·.claim s.current.version)

def released (e : Ensemble) (id : ServerId) : Ensemble :=
  e.adjust id .release

def committed (e : Ensemble) (id : ServerId) (p : RosterProposal) : Ensemble :=
  { e with log := (e.log.append e.log.nextStamp (.reconfigure p) id).deliver }

def deposed (e : Ensemble) : Ensemble :=
  { e with log := e.log.unled }

end Ensemble

namespace Reconfiguration

def proposalOf (current : Roster) (change : Change) : RosterProposal :=
  ⟨current.version, floor current change, change.members⟩

/-- How a request ends that a server runs without a wait. -/
inductive Ends (e : Ensemble) (id : ServerId) (s : Server) (request : Request) :
    Except Fault Roster → Ensemble → Prop
  | disabled (off : s.settings.enabled = false) : Ends e id s request (.error .disabled) e
  | following (on : s.settings.enabled = true) (other : e.log.leader ≠ some id) :
      Ends e id s request (.error (.notLeader e.log.leader)) e
  | refused (on : s.settings.enabled = true) (leads : e.log.leader = some id) (fault : Fault)
      (examined : examine request e.log.roster = .error fault) :
      Ends e id s request (.error fault) ((e.claimed id s).released id)
  | unsynced (on : s.settings.enabled = true) (leads : e.log.leader = some id)
      (change : Change) (candidate : Roster)
      (examined : examine request e.log.roster = .ok (change, candidate))
      (short : ¬ e.log.Musters candidate) (cause : QuorumCause) :
      Ends e id s request (.error (.noQuorum cause)) ((e.claimed id s).released id)
  | unacknowledged (on : s.settings.enabled = true) (leads : e.log.leader = some id)
      (change : Change) (candidate : Roster)
      (examined : examine request e.log.roster = .ok (change, candidate))
      (synced : e.log.Musters candidate)
      (short : e.log.roster.participants ≠ [] ∧ ¬ e.log.Musters e.log.roster)
      (cause : LossCause) :
      Ends e id s request (.error (.lostLeadership cause))
        ((e.claimed id s).deposed.released id)
  | committed (on : s.settings.enabled = true) (leads : e.log.leader = some id)
      (change : Change) (candidate : Roster)
      (examined : examine request e.log.roster = .ok (change, candidate))
      (synced : e.log.Musters candidate)
      (acked : e.log.roster.participants = [] ∨ e.log.Musters e.log.roster) (next : Roster)
      (installed : (Record.reconfigure (proposalOf e.log.roster change)).successor?
        e.log.roster e.log.nextStamp = some next) :
      Ends e id s request (.ok next)
        (FollowUp.complete id e.log.roster next
          (((e.claimed id s).committed id (proposalOf e.log.roster change)).released id))

variable {seed : Roster} {e : Ensemble} {id : ServerId} {s : Server} {request : Request}
  {now : Nat}

section Steps

variable {c : Reconfiguration}

theorem leads_following (hs : e.server c.server = .ok s) (f : FollowUp) :
    Progress.Leads (step now) 1 (.going { c with stage := .following f }, e)
      (c.follow f.next (f.step e)) := by
  refine Progress.leads_one ?_
  simp only [step, hs]
  rfl

/-- A follow-up that nothing comes in between is complete after two steps. -/
theorem leads_follow (now : Nat) (hs : e.server c.server = .ok s) (prev next : Roster) :
    ∃ n ≤ 2, Progress.Leads (step now) n
      (c.follow next (FollowUp.start c.server prev next e))
      (.done (.ok next), FollowUp.complete c.server prev next e) := by
  have hmarked := Ensemble.server_adjust hs fun s => { s with followed := next.version }
  unfold FollowUp.start FollowUp.complete
  rw [hs]
  dsimp only
  split
  · exact ⟨0, Nat.zero_le 2, .here _⟩
  split
  · obtain ⟨t, ht, _⟩ := (CommitLog.keeps_resign Server.view_hear
      (e.adjust c.server fun s => { s with followed := next.version }).log c.server).exists_replica
      (Ensemble.server_eq_ok_iff.1 hmarked)
    exact ⟨2, Nat.le_refl 2, (leads_following hmarked ⟨c.server, next, .resigning⟩).trans
      (leads_following (Ensemble.server_eq_ok_iff.2 ht) ⟨c.server, next, .electing⟩)⟩
  split
  · exact ⟨1, by decide, leads_following hmarked ⟨c.server, next, .renewing⟩⟩
  · exact ⟨0, Nat.zero_le 2, .here _⟩

end Steps

/-- A proposal that was examined makes a roster of the one it was examined on. -/
theorem exists_successor {current candidate : Roster} {change : Change}
    (h : examine request current = .ok (change, candidate)) (stamp : Stamp) :
    ∃ next, (Record.reconfigure (proposalOf current change)).successor? current stamp =
      some next ∧ next.members = candidate.members := by
  obtain ⟨_, _, hmembers, _⟩ := examine_eq_ok h
  have hsound : firstFault change.members = none := hmembers ▸ candidate.sound
  refine ⟨⟨max (floor current change) stamp, change.members, hsound⟩, ?_, hmembers.symm⟩
  exact Record.successor?_eq_some_iff.2 ⟨_, rfl, rfl, rfl, rfl⟩

section Start

theorem leads_asking (hs : e.server id = .ok s) (hon : s.settings.enabled = true) :
    Progress.Leads (step now) 1 (.going (start id request), e)
      (.going ⟨id, request, .asking s.settled⟩, e) := by
  refine Progress.leads_one ?_
  simp [step, start, hs, hon]

theorem leads_of_ask (now : Nat) (hs : e.server id = .ok s) (hon : s.settings.enabled = true)
    {p : Progress Reconfiguration (Except Fault Roster) × Ensemble}
    (hask : ask ⟨id, request, .asking s.settled⟩ s.settled s e = p) :
    Progress.Leads (step now) 2 (.going (start id request), e) p := by
  refine (leads_asking hs hon).trans (Progress.leads_one ?_)
  simp only [step, hs]
  exact congrArg some hask

theorem leads_of_disabled (now : Nat) (hs : e.server id = .ok s)
    (hoff : s.settings.enabled = false) (request : Request) :
    Progress.Leads (step now) 1 (.going (start id request), e) (.done (.error .disabled), e) := by
  refine Progress.leads_one ?_
  simp [step, start, hs, hoff]

theorem leads_of_following (now : Nat) (hs : e.server id = .ok s)
    (hon : s.settings.enabled = true) (hother : e.log.leader ≠ some id) (request : Request) :
    Progress.Leads (step now) 2 (.going (start id request), e)
      (.done (.error (.notLeader e.log.leader)), e) := by
  refine leads_of_ask now hs hon ?_
  rw [ask, if_pos hother]

/-- A leader whose place is free examines the request. -/
theorem ask_of_free (request : Request) (hlead : e.log.leader = some id)
    (hfree : s.inFlight = none) (ticket : Nat) :
    ask ⟨id, request, .asking ticket⟩ ticket s e =
      match examine request s.current with
      | .error fault => (.done (.error fault), (e.claimed id s).released id)
      | .ok (change, candidate) =>
        (.going ⟨id, request, .weighing s.current change candidate⟩, e.claimed id s) := by
  rw [ask, hfree, if_neg (not_not.2 hlead)]
  dsimp only
  rw [Ensemble.claimed]
  cases examine request s.current with
  | error fault => rfl
  | ok pair => rfl

theorem ask_of_prepared (h : e.Prepared seed id s) (request : Request)
    (hlead : e.log.leader = some id) (ticket : Nat) :
    ask ⟨id, request, .asking ticket⟩ ticket s e =
      match examine request e.log.roster with
      | .error fault => (.done (.error fault), (e.claimed id s).released id)
      | .ok (change, candidate) =>
        (.going ⟨id, request, .weighing e.log.roster change candidate⟩, e.claimed id s) := by
  have hcurrent : s.current = e.log.roster := h.tracked.current_eq_of_isOnline
    h.ordered.ascending (h.tracked.led id hlead) (Ensemble.server_eq_ok_iff.1 h.found)
  rw [ask_of_free request hlead h.free, hcurrent]

end Start

def submissionOf (id : ServerId) (p : RosterProposal) (now timeout : Nat) : Submission :=
  ⟨id, p, .sending .forwarded (now + 0) (now + timeout)⟩

section Claimed

variable {current candidate : Roster} {change : Change}

theorem leads_of_unsynced (hs : e.server id = .ok s)
    (hshort : candidate.isQuorum e.log.synced.ids = false) :
    Progress.Leads (step now) 1
      (.going ⟨id, request, .weighing current change candidate⟩, e)
      (.done (.error (.noQuorum (.unsynced e.log.synced id candidate.voters))), e.released id) := by
  refine Progress.leads_one ?_
  simp only [step, hs, weigh, hshort, Bool.false_eq_true, if_false]
  rfl

theorem leads_of_synced (hs : e.server id = .ok s) (hid : s.settings.id = id)
    (hlink : e.link = []) (hquorum : candidate.isQuorum e.log.synced.ids = true) :
    Progress.Leads (step now) 1
      (.going ⟨id, request, .weighing current change candidate⟩, e)
      (.going ⟨id, request, .submitting current
        (submissionOf id (proposalOf current change) now s.settings.proposeTimeout)⟩, e) := by
  refine Progress.leads_one ?_
  simp only [step, hs, weigh, hquorum, if_true, Submission.start, Ensemble.takeTransit, hlink, hid]
  rfl

/-- A record that is at the log at once is proposed in the next step. -/
theorem step_submitting (hs : e.server id = .ok s) (p : RosterProposal) (timeout : Nat) :
    step now ⟨id, request, .submitting current (submissionOf id p now timeout)⟩ e =
      some (submit ⟨id, request, .submitting current (submissionOf id p now timeout)⟩ current
        ((submissionOf id p now timeout).arrive now e s .forwarded)) := by
  simp only [step, hs, Submission.step, submissionOf, Nat.add_zero, Nat.le_refl, if_true,
    Option.map_some]

theorem leads_of_unacknowledged (hs : e.server id = .ok s) (hlead : e.log.leader = some id)
    {p : RosterProposal} {timeout : Nat}
    (hack : e.log.acknowledged ((Record.reconfigure p).successor? e.log.roster e.log.nextStamp) =
      false) :
    Progress.Leads (step now) 1
      (.going ⟨id, request, .submitting current (submissionOf id p now timeout)⟩, e)
      (.done (.error (.lostLeadership (.recordUnacked e.log.nextStamp e.log.online))),
        e.deposed.released id) := by
  refine Progress.leads_one ?_
  rw [step_submitting hs]
  simp only [Submission.arrive, Ensemble.arrive, submissionOf,
    CommitLog.propose_of_not_acknowledged hlead hack]
  rfl

theorem leads_of_acknowledged (hs : e.server id = .ok s) (hlead : e.log.leader = some id)
    {p : RosterProposal} {timeout : Nat}
    (hack : e.log.acknowledged ((Record.reconfigure p).successor? e.log.roster e.log.nextStamp) =
      true) :
    Progress.Leads (step now) 1
      (.going ⟨id, request, .submitting current (submissionOf id p now timeout)⟩, e)
      (.going (landing ⟨id, request, .submitting current (submissionOf id p now timeout)⟩ current
        (submissionOf id p now timeout) e.log.nextStamp (now + s.settings.proposeTimeout)),
        e.committed id p) := by
  refine Progress.leads_one ?_
  rw [step_submitting hs]
  simp only [Submission.arrive, Ensemble.arrive, submissionOf,
    CommitLog.propose_of_acknowledged hlead hack]
  rfl

/-- A call whose record was applied, and made a roster, has only to follow that up. -/
theorem leads_of_landed (now : Nat) {c : Reconfiguration} {submission : Submission} {stamp : Stamp}
    {deadline : Nat} {next : Roster} (hserver : submission.server = c.server)
    (hs : e.server c.server = .ok s) (happlied : stamp ≤ s.view.applied)
    (hlanded : submission.landed s stamp = .ok next) :
    ∃ n ≤ 3, Progress.Leads (step now) n
      (.going (c.landing current submission stamp deadline), e)
      (.done (.ok next), FollowUp.complete c.server current next (e.released c.server)) := by
  have hstep : (c.landing current submission stamp deadline).step now e =
      some ((c.landing current submission stamp deadline).submit current
        (.done (submission.landed s stamp), e)) :=
    step_landing hs (hserver ▸ hs) happlied now
  rw [hlanded] at hstep
  have hreleased : (e.released c.server).server
      (c.landing current submission stamp deadline).server = .ok s.release :=
    Ensemble.server_adjust hs Server.release
  obtain ⟨n, hn, hleads⟩ := leads_follow now
    (c := c.landing current submission stamp deadline) hreleased current next
  exact ⟨n + 1, Nat.succ_le_succ hn, .next hstep hleads⟩

end Claimed

/-- The log asks for a majority of the roster in effect, if there can be one, once the next
roster has one. -/
theorem acknowledged_claimed_iff (id : ServerId) (s : Server) {next : Roster}
    (hnext : e.log.Musters next) : (e.claimed id s).log.acknowledged (some next) = true ↔
      e.log.roster.participants = [] ∨ e.log.Musters e.log.roster := by
  have hsame := CommitLog.isOnline_adjust e.log id (·.claim s.current.version)
  rw [CommitLog.acknowledged_iff, CommitLog.isQuorum_online_iff, CommitLog.isQuorum_online_iff]
  change (_ ∨ (e.log.adjust id (·.claim s.current.version)).Musters e.log.roster) ∧
    (_ ∨ (e.log.adjust id (·.claim s.current.version)).Musters next) ↔ _
  rw [CommitLog.musters_congr hsame, CommitLog.musters_congr hsame]
  exact and_iff_left (Or.inr hnext)

theorem members_of_installed {current candidate next : Roster} {change : Change} {stamp : Stamp}
    (hexamine : examine request current = .ok (change, candidate))
    (hnext : (Record.reconfigure (proposalOf current change)).successor? current stamp =
      some next) : next.members = candidate.members := by
  obtain ⟨_, _, hmembers, _⟩ := examine_eq_ok hexamine
  obtain ⟨_, hp, _, _, hnext⟩ := Record.successor?_eq_some_iff.1 hnext
  cases hp
  exact hnext.trans hmembers.symm

section Committed

variable {p : RosterProposal} {next : Roster}

theorem tracked_committed (h : e.log.Tracked seed) (hlead : e.log.leader = some id)
    (hack : (e.claimed id s).log.acknowledged
      ((Record.reconfigure p).successor? e.log.roster e.log.nextStamp) = true) :
    ((e.claimed id s).committed id p).log.Tracked seed := by
  have hclaimed := (Ensemble.still_claim seed e id s.current.version).log
  have hclaims : (e.claimed id s).log.leader = some id := hlead
  have hpropose : ((e.claimed id s).log.propose id (.reconfigure p)).2.Tracked seed :=
    (hclaimed.tracked h).propose id (.reconfigure p)
  rw [CommitLog.propose_of_acknowledged hclaims hack] at hpropose
  exact hpropose

/-- A leader stays there while it claims its place and commits a proposal. -/
theorem isOnline_committed (h : e.log.Tracked seed) (hlead : e.log.leader = some id) (s : Server)
    (p : RosterProposal) : ((e.claimed id s).committed id p).log.isOnline id = true := by
  refine (CommitLog.isOnline_deliver _ id).trans ?_
  exact (CommitLog.isOnline_adjust e.log id _ id).trans (h.led id hlead)

theorem ordered_committed (h : e.log.Ordered) (hcounter : e.log.counter ≠ 0xFFFFFFFF)
    (s : Server) (p : RosterProposal) : ((e.claimed id s).committed id p).log.Ordered := by
  have hbefore : (e.claimed id s).log.Ordered := h.still rfl rfl rfl
  exact hbefore.committed hcounter rfl rfl rfl

/-- The committed roster is the answer of the server that committed it. -/
theorem leads_of_committed (h : e.Prepared seed id s) (now : Nat) (request : Request)
    (hcounter : e.log.counter ≠ 0xFFFFFFFF) (hlead : e.log.leader = some id)
    (hnext : (Record.reconfigure p).successor? e.log.roster e.log.nextStamp = some next)
    (hack : (e.claimed id s).log.acknowledged (some next) = true)
    (current : Roster) (timeout deadline : Nat) :
    ∃ n ≤ 3, Progress.Leads (step now) n
      (.going (landing ⟨id, request, .submitting current (submissionOf id p now timeout)⟩ current
        (submissionOf id p now timeout) e.log.nextStamp deadline), (e.claimed id s).committed id p)
      (.done (.ok next),
        FollowUp.complete id current next (((e.claimed id s).committed id p).released id)) := by
  have htracked := tracked_committed (s := s) h.tracked hlead ((congrArg _ hnext).trans hack)
  have honline := isOnline_committed h.tracked hlead s p
  obtain ⟨t, ht⟩ := htracked.exists_replica (CommitLog.contains_of_isOnline honline)
  have hentries : ((e.claimed id s).committed id p).log.entries =
      e.log.entries ++ [⟨e.log.nextStamp, .reconfigure p, id⟩] := rfl
  obtain ⟨happlied, hlanded⟩ := Submission.landed_of_commit (submissionOf id p now timeout)
    htracked (ordered_committed h.ordered hcounter s p) honline ht hentries
  have hderived : e.log.roster = rosterAfter seed e.log.entries := h.tracked.derived
  rw [← hderived] at hlanded
  rcases hlanded with ⟨found, hfound, hok⟩ | ⟨hnone, _⟩
  · cases hnext.symm.trans hfound
    exact leads_of_landed now rfl (Ensemble.server_eq_ok_iff.2 ht) happlied hok
  · cases hnext.symm.trans hnone

end Committed

theorem exists_ends (h : e.Prepared seed id s) (hcounter : e.log.counter ≠ 0xFFFFFFFF)
    (request : Request) (now : Nat) :
    ∃ result e', Ends e id s request result e' ∧ ∃ n ≤ 7, Progress.Leads (step now) n
      (.going (start id request), e) (.done result, e') := by
  have hs := h.found
  by_cases hon : s.settings.enabled = true
  swap
  · have hoff : s.settings.enabled = false := Bool.eq_false_iff.2 hon
    exact ⟨_, e, .disabled hoff, 1, by decide, leads_of_disabled now hs hoff request⟩
  by_cases hlead : e.log.leader = some id
  swap
  · exact ⟨_, e, .following hon hlead, 2, by decide, leads_of_following now hs hon hlead request⟩
  have hask := ask_of_prepared h request hlead s.settled
  cases hexamine : examine request e.log.roster with
  | error fault =>
      rw [hexamine] at hask
      exact ⟨_, _, .refused hon hlead fault hexamine, 2, by decide, leads_of_ask now hs hon hask⟩
  | ok pair =>
      obtain ⟨change, candidate⟩ := pair
      rw [hexamine] at hask
      have hweighing := leads_of_ask now hs hon hask
      have hserver : (e.claimed id s).server id = .ok (s.claim s.current.version) :=
        Ensemble.server_adjust hs (·.claim s.current.version)
      have htracked := (Ensemble.still_claim seed e id s.current.version).log.tracked h.tracked
      have hsynced : candidate.isQuorum (e.claimed id s).log.synced.ids = true ↔
          e.log.Musters candidate :=
        (CommitLog.isQuorum_synced_iff htracked (by
          rw [show (e.adjust id _).log.leader = some id from hlead]
          exact Option.some_ne_none id)).trans
        (CommitLog.musters_congr (CommitLog.isOnline_adjust e.log id _) candidate)
      by_cases hmusters : e.log.Musters candidate
      swap
      · refine ⟨_, _, .unsynced hon hlead change candidate hexamine hmusters _, 3, by decide,
          hweighing.trans (leads_of_unsynced hserver ?_)⟩
        exact Bool.eq_false_iff.2 fun hquorum => hmusters (hsynced.1 hquorum)
      obtain ⟨next, hnext, hmembers⟩ := exists_successor hexamine e.log.nextStamp
      have hack := acknowledged_claimed_iff id s (hmusters.of_members_eq hmembers.symm)
      have hsubmitting := hweighing.trans
        (leads_of_synced hserver h.own h.link (hsynced.2 hmusters))
      by_cases hacked : e.log.roster.participants = [] ∨ e.log.Musters e.log.roster
      · obtain ⟨n, hn, hlanding⟩ := leads_of_committed h now request hcounter hlead hnext
          (hack.2 hacked) e.log.roster s.settings.proposeTimeout
          (now + s.settings.proposeTimeout)
        refine ⟨_, _, .committed hon hlead change candidate hexamine hmusters hacked next hnext,
          4 + n, by omega, (hsubmitting.trans (leads_of_acknowledged hserver hlead ?_)).trans
            hlanding⟩
        exact (congrArg _ hnext).trans (hack.2 hacked)
      · refine ⟨_, _, .unacknowledged hon hlead change candidate hexamine hmusters
          (not_or.1 hacked) _, 4, by decide,
          hsubmitting.trans (leads_of_unacknowledged hserver hlead ?_)⟩
        exact (congrArg _ hnext).trans (Bool.eq_false_iff.2 fun hack' => hacked (hack.1 hack'))

end Reconfiguration

end Quorate
