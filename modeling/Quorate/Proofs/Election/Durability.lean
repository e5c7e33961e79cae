import Quorate.Proofs.Election
import Quorate.Proofs.Quorum.Exactness
import Quorate.Proofs.Roster.Valid

/-!
# What an election keeps

A record that a quorum of one roster has acknowledged is not lost in an election under
another one whose majorities meet those of the first: those who voted and those who
acknowledged have a server in common, and the winner stands with a stamp that is at least
that server's (`acknowledged_le_of_elected`).
-/

namespace Quorate

/-- The majorities of the two rosters meet, as they do if the rosters are one that has a
participant. The winner then has what each server of a quorum has. -/
theorem acknowledged_le_of_elected {a b : Roster}
    (hmeet : a.quorumsMeet b = true ∨ a = b ∧ b.participants ≠ []) {acks : List ServerId}
    (hquorum : a.isQuorum acks = true) {last : ServerId → Option Stamp} {stamp : Stamp}
    (hacked : ∀ id ∈ acks, stamp ≤ (last id).getD .zero) {live : IdSet} {winner : ServerId}
    (h : elect b live last = .elected winner) : stamp ≤ (last winner).getD .zero := by
  have htest : a.quorumsMeet b = true := by
    rcases hmeet with htrue | ⟨rfl, hinhabited⟩
    · exact htrue
    · exact Roster.quorumsMeet_self hinhabited
  obtain ⟨id, hacks, hvotes⟩ :=
    Roster.exists_mem_of_quorumsMeet htest (Roster.isQuorum_iff.1 hquorum) (isMajority_of_elected h)
  obtain ⟨_, hack⟩ := Finset.mem_filter.1 hacks
  obtain ⟨hparticipant, hlive⟩ := Finset.mem_filter.1 hvotes
  rw [← Roster.toFinset_voters, IdSet.mem_toFinset] at hparticipant
  exact (hacked id hack).trans (stamp_le_of_elected h hparticipant hlive)

def Roster.quartet : Roster :=
  ⟨.make 2 0, [.onPorts 1 10, .onPorts 2 20, .onPorts 3 30, .onPorts 4 40], by decide +kernel⟩

/-- The first two servers are ahead of the fourth one, and the third one has nothing. -/
def Roster.quartet.last (id : ServerId) : Option Stamp :=
  if id = 1 ∨ id = 2 then some (.make 1 5) else if id = 4 then some (.make 1 2) else none

/-- The first two of three servers have acknowledged a record. Once there is a fourth one,
an election without the first server has the second one as its winner. -/
theorem acknowledged_le_of_elected_quartet :
    Roster.trio.quorumsMeet .quartet = true ∧ Roster.trio.isQuorum [1, 2] = true ∧
      elect .quartet (.ofList [2, 3, 4]) Roster.quartet.last = .elected 2 ∧
      Stamp.make 1 5 ≤ (Roster.quartet.last 2).getD .zero := by
  have hmeet : Roster.trio.quorumsMeet .quartet = true := by decide +kernel
  have hquorum : Roster.trio.isQuorum [1, 2] = true := by decide +kernel
  have helect : elect .quartet (.ofList [2, 3, 4]) Roster.quartet.last = .elected 2 := by
    decide +kernel
  have hacked : ∀ id ∈ [1, 2], Stamp.make 1 5 ≤ (Roster.quartet.last id).getD .zero := by
    rw [List.forall_mem_cons, List.forall_mem_singleton]
    decide +kernel
  exact ⟨hmeet, hquorum, helect,
    acknowledged_le_of_elected (Or.inl hmeet) hquorum hacked helect⟩

end Quorate
