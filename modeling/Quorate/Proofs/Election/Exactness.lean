import Quorate.Proofs.Election
import Quorate.Proofs.Quorum.Decision
import Quorate.Proofs.Roster.Members

/-!
# The outcome of an election

What a round comes to can be said without the passes that it makes: it is decided if more than
half of the participants are live, and then for the one of them of the highest rank
(`elect_eq_elected_iff_isForemost`). The passes meet the voters in some order. `electInTurn`
makes the order explicit, one for each pass, and the round does not depend on it
(`electInTurn_eq_elect`).
-/

namespace Quorate

/-- More than half of the participants are live. -/
def Roster.IsAttended (r : Roster) (live : IdSet) : Prop :=
  r.participants.length < 2 * r.participants.countP live.contains

instance (r : Roster) (live : IdSet) : Decidable (r.IsAttended live) :=
  inferInstanceAs (Decidable (_ < _))

theorem Roster.isAttended_iff {r : Roster} {live : IdSet} :
    r.IsAttended live ↔ r.IsMajority (r.participants.toFinset.filter (· ∈ live)) := by
  have hlive : r.participants.toFinset.filter (· ∈ live) =
      (r.participants.filter live.contains).toFinset := by
    ext id
    simp
  rw [isMajority_filter_iff, hlive, card_toFinset_participants,
    List.toFinset_card_of_nodup (r.nodup_participants.filter _), IsAttended,
    List.countP_eq_length_filter]

/-- The rank of a server in an election: its last stamp, which is zero if it has none, and then
its id. -/
def rankOf (last : ServerId → Option Stamp) (id : ServerId) : Stamp ×ₗ Nat :=
  rank ((last id).getD .zero, id)

/-- A live participant of a rank that no other one of them exceeds. -/
def IsForemost (r : Roster) (live : IdSet) (last : ServerId → Option Stamp)
    (winner : ServerId) : Prop :=
  winner ∈ r.participants ∧ winner ∈ live ∧
    ∀ id ∈ r.participants, id ∈ live → rankOf last id ≤ rankOf last winner

section Outcome

variable {r : Roster} {live live' : IdSet} {last last' : ServerId → Option Stamp}
  {winner : ServerId}

theorem isForemost_iff :
    IsForemost r live last winner ↔
      ∃ stamp, lastCandidate? (candidates r live last) = some (stamp, winner) := by
  simp only [lastCandidate?_eq_some_iff, mem_candidates_iff, Prod.forall, Roster.mem_voters_iff]
  constructor
  · rintro ⟨hvoter, hlive, hgreatest⟩
    refine ⟨_, ⟨⟨hvoter, hlive⟩, rfl⟩, ?_⟩
    rintro _ id ⟨⟨hid, hidlive⟩, rfl⟩
    exact hgreatest id hid hidlive
  · rintro ⟨_, ⟨⟨hvoter, hlive⟩, rfl⟩, hgreatest⟩
    exact ⟨hvoter, hlive, fun id hid hidlive => hgreatest _ id ⟨⟨hid, hidlive⟩, rfl⟩⟩

theorem elect_eq_elected_iff_isForemost :
    elect r live last = .elected winner ↔ r.IsAttended live ∧ IsForemost r live last winner := by
  rw [elect_eq_elected_iff, isForemost_iff, Roster.isAttended_iff, and_comm]

theorem exists_elect_eq_elected_iff_isAttended :
    (∃ winner, elect r live last = .elected winner) ↔ r.IsAttended live := by
  rw [exists_elect_eq_elected_iff, Roster.isAttended_iff]

theorem elect_eq_pending_iff : elect r live last = .pending ↔ ¬ r.IsAttended live := by
  rw [← @exists_elect_eq_elected_iff_isAttended r live last]
  cases elect r live last <;> simp

/-- Only what is known of the participants counts. -/
theorem elect_congr (h : ∀ id ∈ r.participants, (id ∈ live' ↔ id ∈ live) ∧ last' id = last id) :
    elect r live' last' = elect r live last := by
  have hattended : r.IsAttended live' ↔ r.IsAttended live := by
    have hcount : r.participants.countP live'.contains = r.participants.countP live.contains :=
      List.countP_congr fun id hid => by simpa using (h id hid).1
    rw [Roster.IsAttended, Roster.IsAttended, hcount]
  have hrank : ∀ id ∈ r.participants, rankOf last' id = rankOf last id := by
    intro id hid
    rw [rankOf, rankOf, (h id hid).2]
  have hforemost : ∀ id, IsForemost r live' last' id ↔ IsForemost r live last id := by
    intro id
    refine and_congr_right fun hid => and_congr (h id hid).1 (forall₂_congr fun other hother => ?_)
    rw [(h other hother).1, hrank other hother, hrank id hid]
  cases houtcome : elect r live last with
  | pending => exact elect_eq_pending_iff.2 (hattended.not.2 (elect_eq_pending_iff.1 houtcome))
  | elected id =>
      obtain ⟨hlive, hid⟩ := elect_eq_elected_iff_isForemost.1 houtcome
      exact elect_eq_elected_iff_isForemost.2 ⟨hattended.2 hlive, (hforemost id).2 hid⟩

end Outcome

/-- The standing of a vote whose voters are asked one after the other. -/
def tallyInTurn (voters : List ServerId) (vote : ServerId → Option Bool) : Tally :=
  if voters.isEmpty then .won
  else if majoritySize voters.length ≤ voters.countP fun id => vote id = some true then .won
  else if voters.length - majoritySize voters.length < voters.countP fun id => vote id = some false
    then .lost
  else .pending

/-- A round that meets the voters in one order when it looks for a candidate, and in another one
when it counts the votes. -/
def electInTurn (canvass ballot : List ServerId) (live : IdSet)
    (last : ServerId → Option Stamp) : Outcome :=
  let candidates := (canvass.filter live.contains).map fun id => ((last id).getD .zero, id)
  match lastCandidate? candidates with
  | none => .pending
  | some (_, candidate) =>
    if tallyInTurn ballot (fun id => if live.contains id then some true else none) = .won then
      .elected candidate
    else .pending

theorem elect_eq_electInTurn (r : Roster) (live : IdSet) (last : ServerId → Option Stamp) :
    elect r live last = electInTurn r.voters.ids r.voters.ids live last := rfl

theorem tallyInTurn_perm {voters voters' : List ServerId} (h : voters.Perm voters')
    (vote : ServerId → Option Bool) : tallyInTurn voters vote = tallyInTurn voters' vote := by
  rw [tallyInTurn, tallyInTurn, h.isEmpty_eq, h.length_eq, h.countP_eq, h.countP_eq]

theorem lastCandidate?_perm {cs cs' : List (Stamp × ServerId)} (h : cs.Perm cs') :
    lastCandidate? cs = lastCandidate? cs' := by
  ext c
  simp only [lastCandidate?_eq_some_iff, h.mem_iff]

theorem Roster.perm_ids_voters (r : Roster) : r.voters.ids.Perm r.participants :=
  (List.perm_ext_iff_of_nodup r.voters.nodup_ids r.nodup_participants).2 fun _ => mem_voters_iff

theorem electInTurn_eq_elect {r : Roster} {canvass ballot : List ServerId}
    (hcanvass : canvass.Perm r.participants) (hballot : ballot.Perm r.participants)
    (live : IdSet) (last : ServerId → Option Stamp) :
    electInTurn canvass ballot live last = elect r live last := by
  have hcandidates := ((hcanvass.trans r.perm_ids_voters.symm).filter live.contains).map
    fun id => ((last id).getD .zero, id)
  rw [elect_eq_electInTurn, electInTurn, electInTurn, lastCandidate?_perm hcandidates,
    tallyInTurn_perm (hballot.trans r.perm_ids_voters.symm)]

/-- A round is decided exactly if more than half of the participants are live, and its winner is
the one of them of the highest rank. Neither the order in which it meets the voters nor what is
known of other servers has a part in it. -/
theorem elect_exact (r : Roster) (live : IdSet) (last : ServerId → Option Stamp) :
    ((∃ winner, elect r live last = .elected winner) ↔ r.IsAttended live) ∧
    (∀ winner, elect r live last = .elected winner ↔
      r.IsAttended live ∧ IsForemost r live last winner) ∧
    (elect r live last = .pending ↔ ¬ r.IsAttended live) ∧
    (∀ canvass ballot, canvass.Perm r.participants → ballot.Perm r.participants →
      electInTurn canvass ballot live last = elect r live last) ∧
    ∀ live' last', (∀ id ∈ r.participants, (id ∈ live' ↔ id ∈ live) ∧ last' id = last id) →
      elect r live' last' = elect r live last :=
  ⟨exists_elect_eq_elected_iff_isAttended, fun _ => elect_eq_elected_iff_isForemost,
    elect_eq_pending_iff,
    fun _ _ hcanvass hballot => electInTurn_eq_elect hcanvass hballot live last,
    fun _ _ h => elect_congr h⟩

/-- An observer and a participant that is away are ahead of the others, which are even. -/
def Roster.relief.last (id : ServerId) : Option Stamp :=
  if id = 1 then some (.make 9 9) else if id = 4 then some (.make 2 0)
  else if id = 3 ∨ id = 5 then some (.make 1 2) else none

/-- Of two participants that are even the one with the greater id wins, in whatever order they
are met. It makes no difference if the observer goes and a stranger comes with a stamp. -/
theorem elect_exact_relief :
    (electInTurn [5, 3, 4] [4, 5, 3] (.ofList [1, 3, 5]) Roster.relief.last = .elected 5) ∧
      elect .relief (.ofList [3, 5, 77])
        (fun id => if id = 77 then some (.make 8 8) else if id = 1 then none
          else Roster.relief.last id) = .elected 5 := by
  obtain ⟨_, hwins, _, horder, hknown⟩ :=
    elect_exact .relief (.ofList [1, 3, 5]) Roster.relief.last
  have helect : elect .relief (.ofList [1, 3, 5]) Roster.relief.last = .elected 5 :=
    (hwins 5).2 ⟨by decide +kernel, isForemost_iff.2 ⟨.make 1 2, by decide +kernel⟩⟩
  refine ⟨?_, ?_⟩
  · rw [horder _ _ (by decide +kernel) (by decide +kernel), helect]
  · have hsame : ∀ id ∈ Roster.relief.participants,
        (id ∈ IdSet.ofList [3, 5, 77] ↔ id ∈ IdSet.ofList [1, 3, 5]) ∧
          (if id = 77 then some (.make 8 8) else if id = 1 then none
            else Roster.relief.last id) = Roster.relief.last id := by
      rw [show Roster.relief.participants = [3, 4, 5] by decide +kernel, List.forall_mem_cons,
        List.forall_mem_cons, List.forall_mem_singleton]
      decide +kernel
    rw [hknown _ _ hsame, helect]

end Quorate
