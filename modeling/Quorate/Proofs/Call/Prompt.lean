import Quorate.Proofs.Call.Ends
import Quorate.Proofs.Call.Place
import Quorate.Proofs.Call.Request
import Quorate.Proofs.Ensemble.Books
import Quorate.Proofs.Ensemble.Rest

/-!
# Reconfigurations that are answered at once

A reconfiguration of an ensemble at rest never waits, however far epoch and counter have been
counted: the place is free, the link is empty, and a server that committed a record has passed its
stamp, whether the record counted or not. So it comes to an answer in a few steps
(`exists_leads`), and the ensemble is at rest again (`rests_of_leads`). The second does not look at
the way that the call takes: a step does nothing but `Deeds`, which keep the ensemble poised, and
the only place that is taken meanwhile is the one that the call holds (`Attends`).
-/

namespace Quorate

namespace Ensemble

variable {seed : Roster} {e e' : Ensemble} {k : Scope}

theorem Stroke.poised (h : Stroke k e e') (hp : e.Poised seed) : e'.Poised seed := by
  cases h with
  | propose sender proposal _ =>
      exact hp.onward (CommitLog.onward_propose seed e.log sender (.reconfigure proposal))
        (CommitLog.keeps_propose Server.settings_learn Server.settings_hear e.log sender _)
  | elect =>
      exact hp.onward (CommitLog.onward_elect seed e.log)
        (CommitLog.keeps_elect Server.settings_hear e.log)
  | resign leader =>
      exact hp.onward (CommitLog.onward_resign seed e.log leader)
        (CommitLog.keeps_resign Server.settings_hear e.log leader)
  | establish leader =>
      exact hp.onward (CommitLog.onward_establish seed e.log leader)
        (CommitLog.keeps_establish Server.settings_hear e.log leader)

theorem Touch.poised (h : Touch k e e') (hp : e.Poised seed) : e'.Poised seed := by
  cases h with
  | adjust id settings view _ =>
      exact hp.onward (CommitLog.still_adjust seed e.log id view settings).onward
        (CommitLog.keeps_adjust e.log id settings)
  | takeTransit =>
      rw [Ensemble.takeTransit, hp.link]
      exact hp
  | push r _ => exact hp.withSessions (hp.placed.push r)
  | observe session version _ observes => exact hp.withSessions (hp.placed.observe observes)
  | reconnect session server found moves =>
      exact hp.withSessions (hp.placed.reconnect (contains_of_server found) moves)

/-- No step of a call upsets an ensemble that is poised. -/
theorem Deeds.poised (h : Deeds k e e') (hp : e.Poised seed) : e'.Poised seed :=
  h.keeps (R := fun e e' => e.Poised seed → e'.Poised seed) (fun _ => id)
    (fun _ _ _ h h' hp => h' (h hp)) (fun _ _ => Stroke.poised) (fun _ _ => Touch.poised) hp

/-- No server has a proposal in flight, but for these. -/
def FreeBut (busy : ServerId → Prop) (e : Ensemble) : Prop :=
  ∀ id s, e.log.replica? id = some s → s.inFlight = none ∨ busy id

end Ensemble

namespace Reconfiguration

variable {seed : Roster} {e e' : Ensemble} {now : Nat} {c : Reconfiguration} {id : ServerId}
  {s : Server} {request : Request}

/-- The only place that is taken is the one that the call holds. -/
theorem Handles.freeBut {before after : Option Roster} (h : Handles id before after e e')
    (hf : e.FreeBut fun j => j = id ∧ before.isSome) :
    e'.FreeBut fun j => j = id ∧ after.isSome := by
  intro j t ht
  have hplace : e'.place? j = some (t.inFlight, t.settled) :=
    Ensemble.place?_of_server (Ensemble.server_eq_ok_iff.2 ht)
  have hbefore (hsame : e'.place? j = e.place? j) :
      t.inFlight = none ∨ j = id ∧ before.isSome := by
    obtain ⟨u, hu, hslot, _⟩ := Ensemble.exists_server_of_place? (hsame.symm.trans hplace)
    exact hslot ▸ hf j u (Ensemble.server_eq_ok_iff.1 hu)
  cases h with
  | keeps same held => exact held ▸ hbefore (same j)
  | claims free taken others idle held =>
      by_cases hj : j = id
      · exact Or.inr ⟨hj, held ▸ rfl⟩
      · exact (hbefore (others j hj)).imp_right fun h => absurd h.1 hj
  | releases was own free others gone =>
      by_cases hj : j = id
      · rw [hj, free] at hplace
        exact Or.inl (congrArg Prod.fst (Option.some.inj hplace)).symm
      · exact (hbefore (others j hj)).imp_right fun h => absurd h.1 hj

/-- An ensemble at rest but for one call, which changes nothing in its books. -/
structure Attends (seed : Roster) (books : Books)
    (progress : Progress Reconfiguration (Except Fault Roster)) (e : Ensemble) : Prop where
  poised : e.Poised seed
  books : e.books = books
  free : e.FreeBut fun id => ∃ c, progress = .going c ∧ id = c.server ∧ c.held.isSome

theorem Attends.step {books : Books} (h : Attends seed books (.going c) e)
    {p : Progress Reconfiguration (Except Fault Roster) × Ensemble} (hp : c.step now e = some p) :
    Attends seed books p.1 p.2 := by
  have hdeeds := (deeds_step e.supports_all c.knows_all hp).1
  refine ⟨hdeeds.poised h.poised, hdeeds.books_eq.trans h.books, ?_⟩
  have hfree : e.FreeBut fun j => j = c.server ∧ c.held.isSome := by
    intro j t ht
    refine (h.free j t ht).imp_right ?_
    rintro ⟨_, heq, hj⟩
    cases heq
    exact hj
  cases hs : e.server c.server with
  | error fault =>
      simp only [Reconfiguration.step, hs, Option.some.injEq] at hp
      subst hp
      intro j t ht
      refine (hfree j t ht).imp_right ?_
      rintro ⟨rfl, _⟩
      cases hs.symm.trans (Ensemble.server_eq_ok_iff.2 ht)
  | ok s =>
      intro j t ht
      refine ((handles_step hs hp).freeBut hfree j t ht).imp_right ?_
      rintro ⟨rfl, hheld⟩
      obtain ⟨progress, e'⟩ := p
      obtain ⟨r, hr⟩ := Option.isSome_iff_exists.1 hheld
      obtain ⟨d, hd, hdheld⟩ := heldBy_eq_some_iff.1 hr
      cases hd
      obtain ⟨stage, rfl, _⟩ := stage_step hp
      exact ⟨_, rfl, rfl, hdheld ▸ rfl⟩

/-- Once a call is answered that nothing came in between, the ensemble is at rest again. -/
theorem rests_of_leads (h : e.Rests seed) {n : Nat} {result : Except Fault Roster}
    (hleads : Progress.Leads (step now) n (.going (start id request), e) (.done result, e')) :
    e'.Rests seed ∧ e'.books = e.books := by
  have hstart : Attends seed e.books (.going (start id request)) e :=
    ⟨h.toPoised, rfl, fun j t ht => Or.inl (h.free j t ht)⟩
  have hend := hleads.invariant (Attends seed e.books) (fun _ _ _ h hp => h.step hp) hstart
  refine ⟨⟨hend.poised, fun j t ht => ?_⟩, hend.books⟩
  rcases hend.free j t ht with hfree | ⟨_, heq, _⟩
  · exact hfree
  · cases heq

theorem landed_ne_notLeader (submission : Submission) (s : Server) (stamp : Stamp)
    (leader : Option ServerId) : submission.landed s stamp ≠ .error (.notLeader leader) := by
  unfold Submission.landed
  split <;> simp

/-- A call whose record was committed has its answer soon, whatever the record came to. -/
theorem exists_leads_of_landing (c : Reconfiguration) (current : Roster) {submission : Submission}
    (hserver : submission.server = c.server) (now deadline : Nat) (htracked : e.log.Tracked seed)
    (honline : e.log.isOnline c.server = true) {entry : Entry} (hentry : entry ∈ e.log.entries) :
    ∃ result e', (∀ leader, result ≠ .error (.notLeader leader)) ∧ ∃ n ≤ 3,
      Progress.Leads (step now) n
        (.going (c.landing current submission entry.stamp deadline), e) (.done result, e') := by
  obtain ⟨t, ht⟩ := htracked.exists_replica (CommitLog.contains_of_isOnline honline)
  obtain ⟨_, _, _, _, _, hknows⟩ := htracked.handed honline ht
  have hs := Ensemble.server_eq_ok_iff.2 ht
  have happlied : entry.stamp ≤ t.view.applied := by
    rw [show t.view = _ from hknows]
    exact View.stamp_le_applied_learnAll hentry
  have hlanded := landed_ne_notLeader submission t entry.stamp
  have hstep : (c.landing current submission entry.stamp deadline).step now e =
      some ((c.landing current submission entry.stamp deadline).submit current
        (.done (submission.landed t entry.stamp), e)) :=
    step_landing hs (hserver ▸ hs) happlied now
  cases hresult : submission.landed t entry.stamp with
  | ok next =>
      obtain ⟨n, hn, hleads⟩ : ∃ n ≤ 3, Progress.Leads (step now) n
          (.going (c.landing current submission entry.stamp deadline), e)
          (.done (.ok next), FollowUp.complete c.server current next (e.released c.server)) :=
        leads_of_landed now hserver hs happlied hresult
      refine ⟨_, _, ?_, n, hn, hleads⟩
      exact nofun
  | error fault =>
      rw [hresult] at hstep hlanded
      exact ⟨.error fault, _, hlanded, 1, by decide, Progress.leads_one hstep⟩

/-- A leader at rest answers, and does not say that another server leads. -/
theorem exists_leads_of_leader (h : e.Rests seed) (hs : e.server id = .ok s)
    (hon : s.settings.enabled = true) (hlead : e.log.leader = some id) (request : Request)
    (now : Nat) :
    ∃ result e', (∀ leader, result ≠ .error (.notLeader leader)) ∧ ∃ n ≤ 7,
      Progress.Leads (step now) n (.going (start id request), e) (.done result, e') := by
  have hask := ask_of_free request hlead (h.free id s (Ensemble.server_eq_ok_iff.1 hs)) s.settled
  cases hexamine : examine request s.current with
  | error fault =>
      rw [hexamine] at hask
      exact ⟨.error fault, _, fun leader heq =>
        examine_ne_notLeader hexamine leader (Except.error.inj heq), 2, by decide,
        leads_of_ask now hs hon hask⟩
  | ok pair =>
      obtain ⟨change, candidate⟩ := pair
      rw [hexamine] at hask
      have hweighing := leads_of_ask now hs hon hask
      have hserver : (e.claimed id s).server id = .ok (s.claim s.current.version) :=
        Ensemble.server_adjust hs (·.claim s.current.version)
      have hid : s.settings.id = id := by
        rw [h.settings id s (Ensemble.server_eq_ok_iff.1 hs)]
        rfl
      cases hquorum : candidate.isQuorum (e.claimed id s).log.synced.ids with
      | false =>
          refine ⟨_, _, ?_, 3, by decide, hweighing.trans (leads_of_unsynced hserver hquorum)⟩
          exact nofun
      | true =>
      have hsubmitting := hweighing.trans (leads_of_synced hserver hid h.link hquorum)
      cases hack : (e.claimed id s).log.acknowledged ((Record.reconfigure
          (proposalOf s.current change)).successor? e.log.roster e.log.nextStamp) with
      | false =>
          refine ⟨_, _, ?_, 4, by decide,
            hsubmitting.trans (leads_of_unacknowledged hserver hlead hack)⟩
          exact nofun
      | true =>
          have hlanding := hsubmitting.trans (leads_of_acknowledged hserver hlead hack)
          let submission :=
            submissionOf id (proposalOf s.current change) now s.settings.proposeTimeout
          obtain ⟨result, e', hresult, n, hn, hleads⟩ := exists_leads_of_landing
            ⟨id, request, .submitting s.current submission⟩ s.current
            (show submission.server = id from rfl) now (now + s.settings.proposeTimeout)
            (tracked_committed h.tracked hlead hack)
            (isOnline_committed h.tracked hlead s (proposalOf s.current change))
            (List.mem_append_right _ (List.mem_singleton_self _))
          exact ⟨result, e', hresult, 4 + n, by omega, hlanding.trans hleads⟩

theorem exists_leads (h : e.Rests seed) (hs : e.server id = .ok s) (request : Request)
    (now : Nat) :
    ∃ result e', ∃ n ≤ 7,
      Progress.Leads (step now) n (.going (start id request), e) (.done result, e') := by
  cases hon : s.settings.enabled with
  | false => exact ⟨_, e, 1, by decide, leads_of_disabled now hs hon request⟩
  | true =>
      by_cases hlead : e.log.leader = some id
      · obtain ⟨result, e', _, n, hn, hleads⟩ :=
          exists_leads_of_leader h hs hon hlead request now
        exact ⟨result, e', n, hn, hleads⟩
      · exact ⟨_, e, 2, by decide, leads_of_following now hs hon hlead request⟩

end Reconfiguration

end Quorate
