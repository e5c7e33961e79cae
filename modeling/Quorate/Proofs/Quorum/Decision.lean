import Quorate.Proofs.Quorum.Tally
import Quorate.Proofs.Roster.Valid

/-!
# Votes with answers still missing

A vote is decided as soon as the missing answers cannot change what it comes to, and not before
(`Electorate.Exact`, `tally_exact`). What a vote can come to lies between two ways to complete it,
all missing answers refusals or all of them consents: it is won if the first of these is carried,
and not lost if the second one is (`Electorate.exact_of_bounds`). Both ways are counted apart from
each other in a majority; in a joint decision the same two ways serve both halves, so that no vote
stays open that one half has lost already.

Two counts decide on acknowledgements, that of the votes and that of `Roster.isQuorum`. They agree
on rosters that have participants (`quorum_tests_agree`).
-/

namespace Quorate

namespace Electorate

variable {ε : Type}

/-- Everyone has answered, and as before who had answered already. -/
def Completes (vote : ServerId → Option Bool) (final : ServerId → Bool) : Prop :=
  ∀ id answer, vote id = some answer → final id = answer

/-- The vote once everyone has answered. -/
def closed (final : ServerId → Bool) (id : ServerId) : Option Bool :=
  some (final id)

/-- The standing of a vote is what the missing answers leave open. `carries` says which votes are
won once everyone has answered. -/
structure Exact [Electorate ε] (e : ε) (carries : (ServerId → Bool) → Prop) : Prop where
  closed : ∀ final, (tally e (closed final) = .won ↔ carries final) ∧
    tally e (Electorate.closed final) ≠ .pending
  won_iff : ∀ vote, tally e vote = .won ↔
    ∀ final, Completes vote final → tally e (Electorate.closed final) = .won
  lost_iff : ∀ vote, tally e vote = .lost ↔
    ∀ final, Completes vote final → tally e (Electorate.closed final) ≠ .won
  pending_iff : ∀ vote, tally e vote = .pending ↔
    (∃ final, Completes vote final ∧ tally e (Electorate.closed final) = .won) ∧
      ∃ final, Completes vote final ∧ tally e (Electorate.closed final) ≠ .won
  voters : ∀ vote vote', (∀ id, hasVoter e id = true → vote id = vote' id) →
    tally e vote = tally e vote'
  settled : ∀ vote vote', (∀ id answer, vote id = some answer → vote' id = some answer) →
    tally e vote ≠ .pending → tally e vote' = tally e vote

/-- The vote completed with one answer for all that are missing. -/
def filled (vote : ServerId → Option Bool) (answer : Bool) (id : ServerId) : Bool :=
  (vote id).getD answer

theorem completes_filled (vote : ServerId → Option Bool) (answer : Bool) :
    Completes vote (filled vote answer) := by
  intro id given h
  rw [filled, h]
  rfl

/-- Every way to complete a vote lies between the two extreme ones. -/
theorem Completes.between {vote : ServerId → Option Bool} {final : ServerId → Bool}
    (h : Completes vote final) (id : ServerId) :
    (filled vote false id = true → final id = true) ∧
      (final id = true → filled vote true id = true) := by
  unfold filled
  cases hvote : vote id with
  | none => exact ⟨fun hfalse => (Bool.false_ne_true hfalse).elim, fun _ => rfl⟩
  | some answer =>
      rw [h id answer hvote]
      exact ⟨fun hyes => hyes, fun hyes => hyes⟩

/-- A vote is exact if it is won once its completion with refusals is carried, and lost once that
with consents is not, and if more consents among the voters never do harm. -/
theorem exact_of_bounds [Electorate ε] {e : ε} {carries : (ServerId → Bool) → Prop}
    (hmono : ∀ f g, (∀ id, hasVoter e id = true → f id = true → g id = true) →
      carries f → carries g)
    (hwon : ∀ vote, tally e vote = .won ↔ carries (filled vote false))
    (hlost : ∀ vote, tally e vote ≠ .lost ↔ carries (filled vote true)) : Exact e carries := by
  have hclosed : ∀ final, tally e (closed final) = .won ↔ carries final := fun final =>
    hwon (closed final)
  have hwon_iff : ∀ vote, tally e vote = .won ↔
      ∀ final, Completes vote final → tally e (closed final) = .won := by
    intro vote
    constructor
    · intro h final hfinal
      exact (hclosed final).2 (hmono _ _ (fun id _ => (hfinal.between id).1) ((hwon vote).1 h))
    · intro h
      exact (hwon vote).2 ((hclosed _).1 (h _ (completes_filled vote false)))
  have hlost_iff : ∀ vote, tally e vote = .lost ↔
      ∀ final, Completes vote final → tally e (closed final) ≠ .won := by
    intro vote
    rw [← not_iff_not]
    refine (hlost vote).trans ?_
    simp only [not_forall, ne_eq, not_not, exists_prop]
    constructor
    · intro h
      exact ⟨_, completes_filled vote true, (hclosed _).2 h⟩
    · rintro ⟨final, hfinal, h⟩
      exact hmono _ _ (fun id _ => (hfinal.between id).2) ((hclosed final).1 h)
  have hpending_iff : ∀ vote, tally e vote = .pending ↔
      tally e vote ≠ .lost ∧ tally e vote ≠ .won := by
    intro vote
    cases tally e vote <;> simp
  refine ⟨fun final => ⟨hclosed final, ?_⟩, hwon_iff, hlost_iff, ?_, ?_, ?_⟩
  · intro h
    obtain ⟨hnot, hopen⟩ := (hpending_iff _).1 h
    exact hopen ((hwon _).2 ((hlost _).1 hnot))
  · intro vote
    rw [hpending_iff, ne_eq, ne_eq, hlost_iff, hwon_iff]
    simp only [not_forall, ne_eq, not_not, exists_prop]
  · intro vote vote' hsame
    have hfilled : ∀ answer, carries (filled vote answer) ↔ carries (filled vote' answer) := by
      intro answer
      have heq : ∀ id, hasVoter e id = true → filled vote answer id = filled vote' answer id := by
        intro id hid
        rw [filled, filled, hsame id hid]
      exact ⟨hmono _ _ fun id hid => (heq id hid ▸ ·), hmono _ _ fun id hid => (heq id hid ▸ ·)⟩
    have hwins := (hwon vote).trans ((hfilled false).trans (hwon vote').symm)
    have hloses := (hlost vote).trans ((hfilled true).trans (hlost vote').symm)
    revert hwins hloses
    cases tally e vote <;> cases tally e vote' <;> simp
  · intro vote vote' hextends hsettled
    have hfewer : ∀ final, Completes vote' final → Completes vote final :=
      fun final hfinal id answer h => hfinal id answer (hextends id answer h)
    cases hvote : tally e vote with
    | won => exact (hwon_iff vote').2 fun final h => (hwon_iff vote).1 hvote final (hfewer final h)
    | lost =>
        exact (hlost_iff vote').2 fun final h => (hlost_iff vote).1 hvote final (hfewer final h)
    | pending => exact absurd hvote hsettled

end Electorate

open Electorate (filled)

namespace Majority

variable {m : Majority} {vote : ServerId → Option Bool}

/-- More than half of the voters consent, if there are any voters. -/
def Carries (m : Majority) (final : ServerId → Bool) : Prop :=
  m.voters.toFinset = ∅ ∨
    m.voters.toFinset.card < 2 * (m.voters.toFinset.filter (final · = true)).card

theorem Carries.mono {f g : ServerId → Bool}
    (h : ∀ id ∈ m.voters, f id = true → g id = true) (hf : m.Carries f) : m.Carries g := by
  refine hf.imp_right fun hmore => hmore.trans_le (Nat.mul_le_mul_left 2 ?_)
  refine Finset.card_le_card fun id hid => ?_
  obtain ⟨hvoter, hyes⟩ := Finset.mem_filter.1 hid
  exact Finset.mem_filter.2 ⟨hvoter, h id (IdSet.mem_toFinset.1 hvoter) hyes⟩

theorem isEmpty_voters_iff : m.voters.isEmpty = true ↔ m.voters.toFinset = ∅ := by
  rw [← not_iff_not, Bool.not_eq_true, IdSet.isEmpty_eq_false_iff, Finset.nonempty_iff_ne_empty]

theorem tally_eq_won_iff_carries : m.tally vote = .won ↔ m.Carries (filled vote false) := by
  have hyes : ∀ id, filled vote false id = true ↔ vote id = some true := by
    intro id
    unfold filled
    cases vote id <;> simp
  rw [tally_eq_won_iff, isEmpty_voters_iff, count_eq_card, Carries, IdSet.card_toFinset]
  simp only [hyes]

/-- Those who may still consent are all but those who refused. -/
theorem card_filled_add_count (m : Majority) (vote : ServerId → Option Bool) :
    (m.voters.toFinset.filter (filled vote true · = true)).card + m.count vote false =
      m.voters.size := by
  have hno : ∀ id, ¬ filled vote true id = true ↔ vote id = some false := by
    intro id
    unfold filled
    cases vote id <;> simp
  rw [count_eq_card, ← IdSet.card_toFinset,
    ← Finset.card_filter_add_card_filter_not (s := m.voters.toFinset) (filled vote true · = true)]
  simp only [hno]

theorem count_le_card_filled (m : Majority) (vote : ServerId → Option Bool) :
    m.count vote true ≤ (m.voters.toFinset.filter (filled vote true · = true)).card := by
  rw [count_eq_card]
  refine Finset.card_le_card (Finset.monotone_filter_right _ fun id _ hyes => ?_)
  rw [filled, hyes]
  rfl

theorem tally_ne_lost_iff_carries : m.tally vote ≠ .lost ↔ m.Carries (filled vote true) := by
  have hsum := card_filled_add_count m vote
  have hle := count_le_card_filled m vote
  rw [Carries, ← isEmpty_voters_iff, IdSet.card_toFinset, tally]
  unfold majoritySize
  split
  · rename_i hempty
    simp [hempty]
  rename_i hvoters
  have hpos : 0 < m.voters.size := by
    rw [← IdSet.card_toFinset, Finset.card_pos, ← IdSet.isEmpty_eq_false_iff]
    exact Bool.eq_false_iff.2 hvoters
  rw [or_iff_right hvoters]
  split
  · exact iff_of_true (by decide) (by omega)
  split
  · exact iff_of_false (fun h => h rfl) (by omega)
  · exact iff_of_true (by decide) (by omega)

theorem exact (m : Majority) : Electorate.Exact m m.Carries :=
  Electorate.exact_of_bounds
    (fun _ _ h => Carries.mono fun id hid => h id (IdSet.contains_iff.2 hid))
    (fun _ => tally_eq_won_iff_carries) fun _ => tally_ne_lost_iff_carries

end Majority

namespace Joint

/-- Both sides carry the vote. -/
def Carries (j : Joint) (final : ServerId → Bool) : Prop :=
  j.incoming.Carries final ∧ j.outgoing.Carries final

theorem tally_ne_lost_iff {j : Joint} {vote : ServerId → Option Bool} :
    j.tally vote ≠ .lost ↔ j.incoming.tally vote ≠ .lost ∧ j.outgoing.tally vote ≠ .lost := by
  rw [tally]
  cases j.incoming.tally vote <;> cases j.outgoing.tally vote <;> simp

theorem exact (j : Joint) : Electorate.Exact j j.Carries := by
  have hin : ∀ {id}, id ∈ j.incoming.voters → Electorate.hasVoter j id = true := fun hid =>
    Bool.or_eq_true_iff.2 (Or.inl (IdSet.contains_iff.2 hid))
  have hout : ∀ {id}, id ∈ j.outgoing.voters → Electorate.hasVoter j id = true := fun hid =>
    Bool.or_eq_true_iff.2 (Or.inr (IdSet.contains_iff.2 hid))
  refine Electorate.exact_of_bounds ?_ (fun vote => ?_) fun vote => ?_
  · rintro f g h ⟨hincoming, houtgoing⟩
    exact ⟨hincoming.mono fun id hid => h id (hin hid),
      houtgoing.mono fun id hid => h id (hout hid)⟩
  · exact tally_eq_won_iff.trans
      (and_congr Majority.tally_eq_won_iff_carries Majority.tally_eq_won_iff_carries)
  · exact tally_ne_lost_iff.trans
      (and_congr Majority.tally_ne_lost_iff_carries Majority.tally_ne_lost_iff_carries)

/-- Without outgoing voters the incoming ones decide alone. -/
theorem tally_of_isEmpty {j : Joint} (h : j.outgoing.voters.isEmpty = true)
    (vote : ServerId → Option Bool) : j.tally vote = j.incoming.tally vote := by
  have hwon : j.outgoing.tally vote = .won := by
    rw [Majority.tally, if_pos h]
  rw [tally, hwon]
  cases j.incoming.tally vote <;> rfl

end Joint

/-- Every majority and every joint decision knows what comes of a vote as soon as the answers that
are missing cannot change it. -/
theorem tally_exact : (∀ m : Majority, Electorate.Exact m m.Carries) ∧
    ∀ j : Joint, Electorate.Exact j j.Carries :=
  ⟨Majority.exact, Joint.exact⟩

/-- In a vote of five two consents and two refusals leave it open. One more refusal settles it. -/
example :
    (Majority.mk (.ofList [1, 2, 3, 4, 5])).tally
        (fun id => if id ≤ 2 then some true else if id ≤ 4 then some false else none) = .pending ∧
      (Majority.mk (.ofList [1, 2, 3, 4, 5])).tally (fun id => some (id ≤ 2)) = .lost := by
  decide +kernel

namespace Roster

variable {r old new : Roster} {acks : List ServerId}

theorem accepts_majority_eq (h : r.participants ≠ []) :
    Electorate.accepts r.majority acks = r.isQuorum acks :=
  Bool.eq_iff_iff.2 (accepts_majority_iff.trans (or_iff_right h))

/-- On rosters that have participants the two tests on acknowledgements agree, and a joint decision
without outgoing voters is that of the incoming ones. -/
theorem quorum_tests_agree (hold : old.participants ≠ []) (hnew : new.participants ≠ [])
    (acks : List ServerId) :
    (Electorate.accepts (old.handover new) acks = true ↔
      old.isQuorum acks = true ∧ new.isQuorum acks = true) ∧
    Electorate.accepts old.majority acks = old.isQuorum acks ∧
    Electorate.accepts new.majority acks = new.isQuorum acks ∧
    ∀ j : Joint, j.outgoing.voters.isEmpty = true →
      (∀ vote, Electorate.tally j vote = Electorate.tally j.incoming vote) ∧
        ∀ acks', Electorate.accepts j acks' = Electorate.accepts j.incoming acks' := by
  refine ⟨?_, accepts_majority_eq hold, accepts_majority_eq hnew, fun j hj => ?_⟩
  · rw [accepts_handover_iff, or_iff_right hold, or_iff_right hnew]
    exact and_comm
  · have htally : ∀ vote, Electorate.tally j vote = Electorate.tally j.incoming vote :=
      Joint.tally_of_isEmpty hj
    refine ⟨htally, fun acks' => ?_⟩
    rw [Electorate.accepts, Electorate.accepts, htally]

/-- The third of three servers stays while two others relieve the first two, of which one remains
as an observer. -/
def relief : Roster :=
  ⟨.make 1 1, [.onPorts 3 30, .onPorts 4 40, .onPorts 5 50, .onPorts 1 10 .observer],
    by decide +kernel⟩

/-- Two of the first three servers, one of them twice, and a stranger are a quorum of the old
roster alone, and no decision is made. One server of the old, one of the new and the one of both
make it. -/
theorem quorum_tests_agree_relief :
    (trio.isQuorum [1, 2, 1, 9] = true ∧
      Electorate.accepts (trio.handover relief) [1, 2, 1, 9] = false) ∧
    Electorate.accepts (trio.handover relief) [1, 3, 4] = true := by
  have hold : trio.participants ≠ [] := by decide +kernel
  have hnew : relief.participants ≠ [] := by decide +kernel
  have hshort : ¬ relief.isQuorum [1, 2, 1, 9] = true := by decide +kernel
  refine ⟨⟨by decide +kernel, ?_⟩, ?_⟩
  · rw [← Bool.not_eq_true, (quorum_tests_agree hold hnew [1, 2, 1, 9]).1]
    exact fun h => hshort h.2
  · exact (quorum_tests_agree hold hnew [1, 3, 4]).1.2 (by decide +kernel)

end Roster

end Quorate
