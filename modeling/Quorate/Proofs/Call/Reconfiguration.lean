import Quorate.Proofs.Call.Submission

/-!
# What a reconfiguration commits

`Settles` says what a call has to show for the entries that it recorded: nothing before it
has submitted a proposal that was checked against a roster of the log, the entry of that
proposal while it looks up what became of it, exactly the entry that put its roster in effect
when it follows that up or has answered with it. A call that failed need not show anything,
since it may have failed to find the roster that it made.

What others do leaves that as it is (`Settles.lasting`). What a step of the call itself does
is a matter of `Reconfiguration.Moves`.
-/

namespace Quorate

def Progress.Fails {σ α : Type} (p : Progress σ (Except Fault α)) : Prop :=
  ∃ fault, p = .done (.error fault)

/-- The entry at place `n` put `next` in effect as the request asks of the roster before. -/
def Grants (seed : Roster) (entries : List Entry) (request : Request) (n : Nat)
    (next : Roster) : Prop :=
  ∃ prev p, Installs seed entries n prev next ∧ RosterProposal.Vetted p request prev ∧
    next.members = p.members

/-- A submission has recorded nothing while its record is on its way, and then the entry of
its record, which its server has applied. -/
def Submission.Shows (l : CommitLog Server) (recorded : List Nat) (c : Submission) : Prop :=
  match c.stage with
  | .sending passage _ _ => recorded = [] ∧ passage.Honest
  | .landing stamp _ =>
    l.Applied c.server stamp ∧ ∃ n sender, recorded = [n] ∧
      l.entries[n]? = some ⟨stamp, .reconfigure c.proposal, sender⟩

namespace Reconfiguration

def holds (c : Reconfiguration) : Bool :=
  match c.stage with
  | .weighing _ _ _ | .submitting _ _ => true
  | _ => false

def abandon (c : Reconfiguration) (e : Ensemble) : Ensemble :=
  if c.holds then e.adjust c.server .release else e

/-- A call that goes on has recorded what its stage tells. -/
def Sound (seed : Roster) (l : CommitLog Server) (recorded : List Nat) (c : Reconfiguration) :
    Prop :=
  match c.stage with
  | .entering | .asking _ | .parked _ => recorded = []
  | .weighing current change candidate =>
    recorded = [] ∧ current ∈ rosters seed l.entries ∧
      examine c.request current = .ok (change, candidate)
  | .submitting current submission =>
    l.attached.contains c.server = true ∧ current ∈ rosters seed l.entries ∧
      submission.proposal.Vetted c.request current ∧ submission.Shows l recorded
  | .following followUp =>
    l.attached.contains c.server = true ∧
      ∃ n, recorded = [n] ∧ Grants seed l.entries c.request n followUp.next

/-- A call of a request has recorded what its progress tells. -/
def Settles (seed : Roster) (l : CommitLog Server) (request : Request) (recorded : List Nat) :
    Progress Reconfiguration (Except Fault Roster) → Prop
  | .going c => c.request = request ∧ c.Sound seed l recorded
  | .done (.ok next) => ∃ n, recorded = [n] ∧ Grants seed l.entries request n next
  | .done (.error _) => True

end Reconfiguration

section Later

variable {seed : Roster} {l l' : CommitLog Server}

theorem mem_rosters_of_grown {xs ys : List Entry} (h : xs <+: ys) {r : Roster}
    (hr : r ∈ rosters seed xs) : r ∈ rosters seed ys := by
  obtain ⟨more, rfl⟩ := h
  rw [rosters_append]
  exact List.mem_append_left _ hr

theorem Grants.of_grown {xs ys : List Entry} (h : xs <+: ys) {request : Request} {n : Nat}
    {next : Roster} (hg : Grants seed xs request n next) : Grants seed ys request n next := by
  obtain ⟨more, rfl⟩ := h
  obtain ⟨prev, p, hinstalls, hp⟩ := hg
  exact ⟨prev, p, hinstalls.append more, hp⟩

theorem Submission.Shows.lasting (h : CommitLog.Lasting l l') {recorded : List Nat}
    {c : Submission} (hs : c.Shows l recorded) : c.Shows l' recorded := by
  unfold Shows at hs ⊢
  split at hs
  · exact hs
  · obtain ⟨happlied, n, sender, hrecorded, hget⟩ := hs
    obtain ⟨more, hmore⟩ := h.grows
    refine ⟨happlied.retains h.retains, n, sender, hrecorded, ?_⟩
    rw [← hmore, List.getElem?_append_left (List.getElem?_eq_some_iff.1 hget).1]
    exact hget

/-- What others do leaves what a call has to show for itself. -/
theorem Reconfiguration.Sound.lasting (h : CommitLog.Lasting l l') {recorded : List Nat}
    {c : Reconfiguration} (hsound : c.Sound seed l recorded) : c.Sound seed l' recorded := by
  unfold Sound at hsound ⊢
  split at hsound
  · exact hsound
  · exact hsound
  · exact hsound
  · exact ⟨hsound.1, mem_rosters_of_grown h.grows hsound.2.1, hsound.2.2⟩
  · obtain ⟨hin, hmem, hvetted, hshows⟩ := hsound
    exact ⟨h.stays c.server hin, mem_rosters_of_grown h.grows hmem, hvetted, hshows.lasting h⟩
  · obtain ⟨hin, n, hrecorded, hg⟩ := hsound
    exact ⟨h.stays c.server hin, n, hrecorded, hg.of_grown h.grows⟩

theorem Reconfiguration.Settles.lasting (h : CommitLog.Lasting l l') {request : Request}
    {recorded : List Nat} {progress : Progress Reconfiguration (Except Fault Roster)}
    (hs : Settles seed l request recorded progress) :
    Settles seed l' request recorded progress := by
  match progress, hs with
  | .done (.ok next), ⟨n, hrecorded, hg⟩ => exact ⟨n, hrecorded, hg.of_grown h.grows⟩
  | .done (.error _), _ => trivial
  | .going c, ⟨hrequest, hsound⟩ => exact ⟨hrequest, hsound.lasting h⟩

end Later

end Quorate
