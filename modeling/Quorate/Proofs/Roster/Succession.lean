import Quorate.Call.Reconfiguration
import Quorate.Proofs.Change
import Quorate.Proofs.History
import Quorate.Proofs.Quorum.Overlap
import Quorate.Proofs.Stamp.Order

/-!
# Rosters that follow one another

`Roster.Succeeds prev next` gathers what has to hold between a roster and the one that takes
effect after it. A proposal that a request makes on a roster (`RosterProposal.Vetted`) was
checked against that roster alone; whenever it takes effect there, the outcome succeeds the
roster, whatever the stamp of its commit (`Vetted.succeeds`).

Along a chain of successions the versions ascend, so that a version names one roster of it
(`eq_of_version_eq`): a proposal that fits the base of a chain's roster was made on it.
-/

namespace Quorate

/-- What has to hold between a roster and the one that takes effect after it. -/
structure Roster.Succeeds (prev next : Roster) : Prop where
  version_lt : prev.version < next.version
  epoch_le : prev.version.epoch ≤ next.version.epoch
  epoch_lt : prev.participants.toFinset ≠ next.participants.toFinset →
    prev.version.epoch < next.version.epoch
  inhabited : next.participants ≠ []
  valid : ValidMembers next.members
  meet : ∀ A B, prev.IsMajority A → next.IsMajority B → ∃ id, id ∈ A ∧ id ∈ B

/-- The proposal that a request makes on a roster, which it was checked against. -/
def RosterProposal.Vetted (p : RosterProposal) (request : Request) (current : Roster) : Prop :=
  ∃ change candidate, Reconfiguration.examine request current = .ok (change, candidate) ∧
    p = ⟨current.version, Reconfiguration.floor current change, change.members⟩

theorem examine_eq_ok_iff {request : Request} {current candidate : Roster} {change : Change} :
    Reconfiguration.examine request current = .ok (change, candidate) ↔
      (∀ version, request.expected = some version → version = current.version) ∧
      Change.compute current request.change = .ok change ∧
      Roster.make current.version change.members = .ok candidate ∧
      current.quorumsMeet candidate = true := by
  unfold Reconfiguration.examine
  split
  · rename_i version hversion
    obtain ⟨hexpected, hne⟩ := Option.filter_eq_some_iff.1 hversion
    refine ⟨(nomatch ·), fun ⟨h, _⟩ => absurd (h version hexpected) (by simpa using hne)⟩
  · rename_i hnone
    have hexpected : ∀ version, request.expected = some version → version = current.version := by
      intro version hsome
      simpa using Option.filter_eq_none_iff.1 hnone version hsome
    simp only [bind_eq_ok_iff, pure, Except.pure, Except.ok.injEq, Prod.mk.injEq]
    constructor
    · rintro ⟨c, hc, r, hr, _, hsafe, rfl, rfl⟩
      exact ⟨hexpected, hc, hr, Roster.checkSafety_eq_ok_iff.1 hsafe⟩
    · rintro ⟨_, hc, hr, hmeet⟩
      exact ⟨change, hc, candidate, hr, (), Roster.checkSafety_eq_ok_iff.2 hmeet, rfl, rfl⟩

theorem examine_eq_ok {request : Request} {current candidate : Roster} {change : Change}
    (h : Reconfiguration.examine request current = .ok (change, candidate)) :
    (∀ expected, request.expected = some expected → expected = current.version) ∧
      Change.compute current request.change = .ok change ∧
      candidate.members = change.members ∧ current.quorumsMeet candidate = true := by
  obtain ⟨hexpected, hcompute, hmake, hmeet⟩ := examine_eq_ok_iff.1 h
  exact ⟨hexpected, hcompute, (Roster.make_eq_ok_iff.1 hmake).2, hmeet⟩

/-- A request is stale, or its change makes no roster, or one with other quorums. -/
theorem examine_error {request : Request} {current : Roster} {fault : Fault}
    (h : Reconfiguration.examine request current = .error fault) :
    (∃ expected, fault = .staleVersion expected current.version) ∨
      (∃ cause, fault = .invalidMembership cause) ∨ ∃ cause, fault = .noQuorum cause := by
  unfold Reconfiguration.examine at h
  split at h
  · cases h
    exact Or.inl ⟨_, rfl⟩
  rcases bind_eq_error_iff.1 h with h | ⟨change, _, h⟩
  · exact Or.inr (Or.inl (Change.compute_error h))
  rcases bind_eq_error_iff.1 h with h | ⟨candidate, _, h⟩
  · rw [Roster.make] at h
    split at h <;> cases h
    exact Or.inr (Or.inl ⟨_, rfl⟩)
  rcases bind_eq_error_iff.1 h with h | ⟨_, _, h⟩
  · rw [Roster.checkSafety] at h
    split at h <;> cases h
    exact Or.inr (Or.inr ⟨_, rfl⟩)
  · cases h

theorem examine_of_stale {request : Request} {current : Roster} {version : Version}
    (hexpected : request.expected = some version) (hstale : version ≠ current.version) :
    Reconfiguration.examine request current = .error (.staleVersion version current.version) := by
  have hfilter : request.expected.filter (· ≠ current.version) = some version := by
    rw [hexpected, Option.filter_some, if_pos (decide_eq_true hstale)]
  unfold Reconfiguration.examine
  rw [hfilter]

theorem Roster.participants_eq_of_members_eq {a b : Roster} (h : a.members = b.members) :
    a.participants = b.participants := by
  rw [participants, participants, h]

theorem Roster.IsMajority.of_members_eq {a b : Roster} {A : Finset ServerId}
    (hA : a.IsMajority A) (h : a.members = b.members) : b.IsMajority A := by
  unfold Roster.IsMajority at hA ⊢
  rwa [← Roster.participants_eq_of_members_eq h]

/-- Where other participants decide, the least version is one of the next epoch. -/
theorem lt_floor {current : Roster} (change : Change)
    (hepoch : current.version.epoch ≠ 0xFFFFFFFF)
    (hcounter : current.version.counter ≠ 0xFFFFFFFF) :
    current.version < Reconfiguration.floor current change := by
  unfold Reconfiguration.floor
  split
  · exact Stamp.lt_nextEpoch hepoch
  · exact Stamp.lt_nextCounter hcounter

/-- What is decided on the change itself is whether other participants decide from then on. -/
theorem changesParticipants_iff {current next : Roster} {change : Change}
    (hmembers : next.members = change.members) :
    change.changesParticipants current = true ↔
      current.participants.toFinset ≠ next.participants.toFinset := by
  have hnext : IdSet.ofList change.participants = next.voters := by
    rw [Roster.voters, Roster.participants, hmembers]
    rfl
  rw [Change.changesParticipants, decide_eq_true_iff, hnext, ← Roster.toFinset_voters,
    ← Roster.toFinset_voters, Ne, Ne, IdSet.toFinset_inj]

theorem epoch_lt_floor {current next : Roster} {change : Change}
    (hepoch : current.version.epoch ≠ 0xFFFFFFFF) (hmembers : next.members = change.members)
    (hne : current.participants.toFinset ≠ next.participants.toFinset) :
    current.version.epoch < (Reconfiguration.floor current change).epoch := by
  rw [Reconfiguration.floor, if_pos ((changesParticipants_iff hmembers).2 hne), Stamp.nextEpoch,
    Stamp.epoch_make]
  exact lt_bump hepoch

namespace RosterProposal

theorem Vetted.base_eq {p : RosterProposal} {request : Request} {current : Roster}
    (h : p.Vetted request current) : p.base = current.version := by
  obtain ⟨_, _, _, rfl⟩ := h
  rfl

theorem Vetted.succeeds {p : RosterProposal} {request : Request} {current next : Roster}
    {stamp : Stamp} (h : p.Vetted request current) (hnext : p.applyTo current stamp = .ok next)
    (hepoch : current.version.epoch ≠ 0xFFFFFFFF)
    (hcounter : current.version.counter ≠ 0xFFFFFFFF) : current.Succeeds next := by
  obtain ⟨change, candidate, hexamine, rfl⟩ := h
  obtain ⟨_, _, hcandidate, hmeet⟩ := examine_eq_ok hexamine
  obtain ⟨_, hversion, hmembers⟩ := applyTo_eq_ok_iff.1 hnext
  dsimp only at hversion hmembers
  have hfloor : Reconfiguration.floor current change ≤ next.version := by
    rw [hversion]
    exact le_max_left _ _
  have hlt : current.version < next.version :=
    (lt_floor change hepoch hcounter).trans_le hfloor
  have hsame : candidate.members = next.members := hcandidate.trans hmembers.symm
  constructor
  · exact hlt
  · exact Stamp.epoch_le_of_le hlt.le
  · intro hne
    exact UInt32.lt_of_lt_of_le (epoch_lt_floor hepoch hmembers hne)
      (Stamp.epoch_le_of_le hfloor)
  · rw [← Roster.participants_eq_of_members_eq hsame]
    exact Roster.participants_ne_nil_of_quorumsMeet hmeet
  · exact next.validMembers
  · intro A B hA hB
    exact Roster.exists_mem_of_quorumsMeet hmeet hA (hB.of_members_eq hsame.symm)

end RosterProposal

section Chain

variable {seed : Roster} {entries : List Entry}

theorem pairwise_version_lt (h : (rosters seed entries).IsChain Roster.Succeeds) :
    (rosters seed entries).Pairwise fun a b => a.version < b.version := by
  have hversions : ((rosters seed entries).map (·.version)).IsChain (· < ·) := by
    rw [List.isChain_map]
    exact h.imp fun _ _ hs => hs.version_lt
  exact List.pairwise_map.1 hversions.pairwise

/-- A version names one roster of a chain. -/
theorem eq_of_version_eq (h : (rosters seed entries).IsChain Roster.Succeeds) {a b : Roster}
    (ha : a ∈ rosters seed entries) (hb : b ∈ rosters seed entries)
    (heq : a.version = b.version) : a = b := by
  have hnodup : ((rosters seed entries).map (·.version)).Nodup := by
    refine List.pairwise_map.2 ((pairwise_version_lt h).imp ?_)
    intro a b hlt
    exact hlt.ne
  exact List.inj_on_of_nodup_map hnodup ha hb heq

/-- Where a proposal takes effect, the roster that it was made on is the one in effect. -/
theorem RosterProposal.Vetted.current_eq (h : (rosters seed entries).IsChain Roster.Succeeds)
    {p : RosterProposal} {request : Request} {current prev next : Roster} {stamp : Stamp}
    (hvetted : p.Vetted request current) (hmem : current ∈ rosters seed entries)
    (hprev : prev ∈ rosters seed entries)
    (hnext : (Record.reconfigure p).successor? prev stamp = some next) : current = prev := by
  obtain ⟨q, hq, hbase, _⟩ := Record.successor?_eq_some_iff.1 hnext
  cases hq
  exact eq_of_version_eq h hmem hprev (hvetted.base_eq.symm.trans hbase)

theorem isChain_rosters_append_left {xs ys : List Entry}
    (h : (rosters seed (xs ++ ys)).IsChain Roster.Succeeds) :
    (rosters seed xs).IsChain Roster.Succeeds := by
  rw [rosters_append] at h
  exact (List.isChain_append.1 h).1

theorem isChain_rosters_concat_iff {e : Entry} :
    (rosters seed (entries ++ [e])).IsChain Roster.Succeeds ↔
      (rosters seed entries).IsChain Roster.Succeeds ∧
        ∀ next, e.record.successor? (rosterAfter seed entries) e.stamp = some next →
          (rosterAfter seed entries).Succeeds next := by
  rw [rosters_concat, List.isChain_append, getLast?_rosters]
  cases e.record.successor? (rosterAfter seed entries) e.stamp with
  | none => simp
  | some next => simp

theorem version_rosterAfter_le {xs ys : List Entry}
    (h : (rosters seed (xs ++ ys)).IsChain Roster.Succeeds) :
    (rosterAfter seed xs).version ≤ (rosterAfter seed (xs ++ ys)).version := by
  induction ys using List.reverseRecOn with
  | nil => simp
  | append_singleton ys e ih =>
      rw [← List.append_assoc] at h ⊢
      obtain ⟨hchain, hsucceeds⟩ := isChain_rosters_concat_iff.1 h
      have hle := ih hchain
      rw [rosterAfter_concat]
      cases hnext : e.record.successor? (rosterAfter seed (xs ++ ys)) e.stamp with
      | none => simpa using hle
      | some next => simpa using hle.trans (hsucceeds next hnext).version_lt.le

/-- Of two entries that put rosters in effect, the later one did so under a later roster. -/
theorem Installs.version_lt (h : (rosters seed entries).IsChain Roster.Succeeds) {m n : Nat}
    {prev prev' next next' : Roster} (hm : Installs seed entries m prev next)
    (hn : Installs seed entries n prev' next') (hmn : m < n) : prev.version < prev'.version := by
  obtain ⟨rfl, e, hget, hnext⟩ := hm
  obtain ⟨rfl, _⟩ := hn
  have htake : entries.take (m + 1) = entries.take m ++ [e] := by
    rw [List.take_add_one, hget]
    rfl
  have hsplit : entries.take n = entries.take (m + 1) ++ (entries.take n).drop (m + 1) := by
    have htt : (entries.take n).take (m + 1) = entries.take (m + 1) := by
      rw [List.take_take, Nat.min_eq_left hmn]
    rw [← htt, List.take_append_drop]
  have hchain : (rosters seed (entries.take n)).IsChain Roster.Succeeds := by
    rw [← List.take_append_drop n entries] at h
    exact isChain_rosters_append_left h
  rw [hsplit] at hchain ⊢
  have hle := version_rosterAfter_le hchain
  have hafter : rosterAfter seed (entries.take (m + 1)) = next := by
    rw [htake, rosterAfter_concat, hnext]
    rfl
  have hstep := isChain_rosters_append_left hchain
  rw [htake] at hstep
  rw [hafter] at hle
  exact ((isChain_rosters_concat_iff.1 hstep).2 next hnext).version_lt.trans_le hle

/-- Nothing is put in effect behind the roster that is in effect. -/
theorem rosters_take_of_latest (h : (rosters seed entries).IsChain Roster.Succeeds) {n : Nat}
    {prev : Roster} (hinstalls : Installs seed entries n prev (rosterAfter seed entries)) :
    rosters seed (entries.take (n + 1)) = rosters seed entries := by
  obtain ⟨rfl, e, hget, hnext⟩ := hinstalls
  have hafter : rosterAfter seed (entries.take (n + 1)) = rosterAfter seed entries := by
    rw [List.take_add_one, hget, Option.toList_some, rosterAfter_concat, hnext, Option.getD_some]
  have hsplit := rosters_append seed (entries.take (n + 1)) (entries.drop (n + 1))
  rw [List.take_append_drop] at hsplit
  have hlast := getLast?_rosters seed (entries.take (n + 1))
  rw [hafter] at hlast
  have hpairwise := pairwise_version_lt h
  rw [hsplit] at hpairwise ⊢
  rw [List.self_eq_append_right]
  by_contra hnonempty
  -- Otherwise the roster in effect would be later than itself.
  have hlater : rosterAfter seed entries ∈
      (rosterChanges (rosterAfter seed (entries.take (n + 1))) (entries.drop (n + 1))).map
        Prod.snd := by
    have hend := getLast?_rosters seed entries
    rw [hsplit, List.getLast?_append_of_ne_nil _ hnonempty] at hend
    exact List.mem_of_getLast? hend
  exact lt_irrefl _ ((List.pairwise_append.1 hpairwise).2.2 _ (List.mem_of_getLast? hlast) _ hlater)

theorem seed_version_lt (h : (rosters seed entries).IsChain Roster.Succeeds) {next : Roster}
    (hnext : next ∈ (rosters seed entries).tail) : seed.version < next.version :=
  (List.pairwise_cons.1 (pairwise_version_lt h)).1 next hnext

theorem version_le_rosterAfter (h : (rosters seed entries).IsChain Roster.Succeeds) {r : Roster}
    (hr : r ∈ rosters seed entries) : r.version ≤ (rosterAfter seed entries).version := by
  have hlast := getLast?_rosters seed entries
  obtain ⟨init, hinit⟩ := List.getLast?_eq_some_iff.1 hlast
  have hpairwise := pairwise_version_lt h
  rw [hinit] at hr hpairwise
  rcases List.mem_append.1 hr with hbefore | hend
  · exact ((List.pairwise_append.1 hpairwise).2.2 r hbefore _ (List.mem_singleton_self _)).le
  · rw [List.mem_singleton.1 hend]

end Chain

end Quorate
