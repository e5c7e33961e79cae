import Quorate.Proofs.Call.Granted
import Quorate.Proofs.Ensemble.Success
import Quorate.Proofs.Service.Informed
import Quorate.Proofs.Service.Leadership

/-!
# A leader after every reconfiguration

Wherever a run has come to, a reconfiguration that is granted, and that nothing comes in between,
hands the log over: a participant of the new roster leads and runs. Whether the version of that
roster is ahead of the log, and whether the same participants keep their leader, depends on what
other reconfigurations have left to do (`CommitLog.Seams`). Where each of them is run to its end
before the next one begins, nothing is left to do and the hand-over is seamless
(`Site.handsOver_of_granted`).
-/

namespace Quorate

namespace Ensemble

/-- A request is granted on a log, by a server or for a session. For a session that is the log as
it is when the leader is settled. -/
inductive Granted (e : Ensemble) (request : Request) (next : Roster) :
    CommitLog Server → Ensemble → Prop
  | server {now : Nat} {server : ServerId} {e' : Ensemble}
      (granted : e.reconfigure now server request = (.done (.ok next), e')) :
      Granted e request next e.log e'
  | session {now : Nat} {session : SessionId} {e' : Ensemble}
      (granted : e.request now session request = (.done (.ok next), e'))
      (inRange : e'.log.InRange) : Granted e request next e.leaderOrElect.2.log e'

variable {template : Settings} {seed : Roster} {e e' : Ensemble} {l : CommitLog Server}
  {calls : Reconfiguration → Prop} {request : Request} {next : Roster}

theorem Informed.unhindered (h : e.Informed seed calls) (hm : e.log.Manned) :
    e.Unhindered seed :=
  ⟨h.link, hm, h.sound.tracked, h.sound.ordered⟩

/-- What is granted while other calls are under way. -/
theorem Informed.seams {v : Version} (h : e.Informed seed calls) (ha : e.Abreast seed v)
    (hm : e.log.Manned) (hr : e.log.InRange)
    (hepoch : e.log.roster.version.epoch ≠ 0xFFFFFFFF)
    (hcounter : e.log.roster.version.counter ≠ 0xFFFFFFFF)
    (hgranted : e.Granted request next l e') :
    CommitLog.HandsOver l e'.log next ∧ CommitLog.Seams request l e'.log next := by
  have hready := h.unhindered hm
  cases hgranted with
  | server granted =>
      obtain ⟨_, hleads⟩ := Progress.exists_leads_of_burst granted
      obtain ⟨s, hs, hends⟩ := Reconfiguration.ends_of_leads hready hr.2 hleads
      exact hends.seams h.sound.tracked.led hr.1 hepoch hcounter hs h.followed_le
  | session granted inRange =>
      obtain ⟨leader, e₁, hled, _, e₂, hleads, sessions, rfl⟩ :=
        Routed.granted_by_leader hready hr.2 granted
      have haside : e.Aside none e.leaderOrElect.2 := aside_leaderOrElect hr.1
      have helected := h.aside (ha.leaderOrElect hr) haside
      have hmanned := e.orderly_leaderOrElect.manned hm
      have hcount := counter_leaderOrElect hr
      have hroster := haside.steady.roster
      rw [hled] at helected hmanned hcount hroster ⊢
      dsimp only at helected hmanned hcount hroster ⊢
      obtain ⟨s, hs, hends⟩ :=
        Reconfiguration.ends_of_leads (helected.unhindered hmanned) hcount hleads
      exact hends.seams helected.sound.tracked.led (hends.epoch_ne inRange.1)
        (hroster ▸ hepoch) (hroster ▸ hcounter) hs helected.followed_le

/-- What is granted where every call is run to its end before anything else happens. -/
theorem Reachable.seamless (h : Reachable template seed (·.isReconfigure = false) e)
    (hgranted : e.Granted request next l e') :
    CommitLog.HandsOver l e'.log next ∧ CommitLog.Seamless request l e'.log next := by
  cases hgranted with
  | server granted =>
      obtain ⟨s, hs, hends⟩ := ends_of_reconfigured h.calm h.inRange granted
      exact hends.handsOver_of_governed h.governed h.calm.tracked.led h.inRange hs
  | session granted inRange =>
      obtain ⟨hcalm, hgoverned, hcounter⟩ :=
        Ensemble.governed_leaderOrElect h.calm h.governed h.inRange
      cases ends_of_granted h.calm h.inRange granted with
      | committed _ led found ends _ =>
          rw [led] at hcalm hgoverned hcounter ⊢
          exact ends.handsOver_of_governed hgoverned hcalm.tracked.led
            ⟨ends.epoch_ne inRange.1, hcounter⟩ found

end Ensemble

namespace Site

variable {template : Settings} {seed : Roster} {s : Site}

theorem manned_happen (h : s.ensemble.log.Manned) (event : Event) :
    (s.happen event).ensemble.log.Manned := by
  cases event with
  | operate operation => exact Service.manned_perform h operation
  | reattach id => exact h.reattach id
  | resign leader => exact (CommitLog.orderly_resign _ leader).manned h
  | establish leader => exact (CommitLog.orderly_establish _ leader).manned h
  | propose sender record _ => exact (CommitLog.orderly_propose _ sender record).manned h
  | drain => exact h
  | reform server request => exact h
  | further place now =>
      rcases s.further_cases place now with heq | ⟨_, _, _, _, hstep, heq⟩
      · rw [happen, heq]
        exact h
      · rw [happen, heq]
        exact (Reconfiguration.orderly_step hstep).manned h
  | followAgain server prev next =>
      unfold happen
      dsimp only
      split
      · obtain ⟨htouches, _⟩ := FollowUp.touches_start (k := .all) server prev trivial s.ensemble
        have horderly := (Ensemble.Deeds.quiet htouches).orderly
        rw [← Reconfiguration.ensemble_follow] at horderly
        exact horderly.manned h
      · exact h

theorem Arises.manned (h : s.Arises template seed) : s.ensemble.log.Manned := by
  obtain ⟨first, hfirst, hreaches⟩ := h
  exact hreaches.invariant (·.ensemble.log.Manned) (Ensemble.manned_bootstrap hfirst)
    fun s event _ hs => manned_happen hs event

/-- A reconfiguration that is granted hands the log over to a participant of the new roster, in a
new epoch if the participants are others than before, whatever other reconfigurations have left
to do. The hand-over has a seam exactly if the log does not keep pace with the roster before, or
the same participants are not led by one of them. It has none if every reconfiguration is run to
its end before anything else happens. -/
theorem handsOver_of_granted {template : Settings} {seed : Roster} {request : Request}
    {next : Roster} {l : CommitLog Server} {e' : Ensemble} :
    (∀ s : Site, s.Arises template seed → s.ensemble.Granted request next l e' →
      CommitLog.HandsOver l e'.log next ∧ CommitLog.Seams request l e'.log next) ∧
    (∀ e : Ensemble, e.Reachable template seed (·.isReconfigure = false) →
      e.Granted request next l e' →
      CommitLog.HandsOver l e'.log next ∧ CommitLog.Seamless request l e'.log next) := by
  refine ⟨fun s h hgranted => ?_, fun e h hgranted => h.seamless hgranted⟩
  have hb := h.bounded
  exact Ensemble.Informed.seams h.informed h.abreast.service.ensemble h.manned hb.1.1 hb.1.2 hb.2
    hgranted

/-- A fourth server is brought in and another one removed, and neither has been followed up. -/
def crowded : Site :=
  run Ensemble.trio ([.reform 3 ⟨.incremental [.onPorts 4 40] [], none⟩] ++
    List.replicate 5 (.further 0 0) ++ [.reform 3 ⟨.incremental [] [1], none⟩] ++
    List.replicate 5 (.further 1 0))

/-- The leader has been removed, and has not followed that up. -/
def departing : Site :=
  run Ensemble.trio ([.reform 3 ⟨.incremental [] [3], none⟩] ++ List.replicate 5 (.further 0 0))

theorem arises_crowded : crowded.Arises {} .trio :=
  arises_run (by decide +kernel) _ (by decide +kernel)

theorem arises_departing : departing.Arises {} .trio :=
  arises_run (by decide +kernel) _ (by decide +kernel)

/-- The leader of a crowded site has the fourth server leave again. -/
def leaveFourth : Progress Reconfiguration (Except Fault Roster) × Ensemble :=
  crowded.ensemble.reconfigure 0 3 ⟨.incremental [] [4], none⟩

/-- A leader that has been removed brings in an observer. -/
def lastDeed : Progress Reconfiguration (Except Fault Roster) × Ensemble :=
  departing.ensemble.reconfigure 0 3 Ensemble.joinObserver

theorem granted_leaveFourth : leaveFourth.1 = .done (.ok leaveFourth.2.log.roster) := by
  decide +kernel

/-- One reconfiguration is granted with a version that is ahead of the log. Another one, which
leaves the participants, has one of them lead in the next epoch that did not lead before, and that
is not what the change was found to do. -/
theorem granted_with_seams :
    (crowded.Arises {} .trio ∧ leaveFourth.1 = .done (.ok leaveFourth.2.log.roster) ∧
      leaveFourth.2.log.lastCommitted < leaveFourth.2.log.roster.version) ∧
    departing.Arises {} .trio ∧ lastDeed.1 = .done (.ok lastDeed.2.log.roster) ∧
      departing.ensemble.log.roster.participants.toFinset =
        lastDeed.2.log.roster.participants.toFinset ∧
      departing.ensemble.log.leader = some 3 ∧ lastDeed.2.log.leader = some 2 ∧
      departing.ensemble.log.epoch < lastDeed.2.log.epoch ∧
      (Reconfiguration.examine Ensemble.joinObserver departing.ensemble.log.roster).map
        (fun p => p.1.changesParticipants departing.ensemble.log.roster) = .ok false ∧
      lastDeed.2.log.roster.isParticipant 3 = false :=
  ⟨⟨arises_crowded, granted_leaveFourth, by decide +kernel⟩, arises_departing, by decide +kernel,
    by decide +kernel, by decide +kernel, by decide +kernel, by decide +kernel, by decide +kernel,
    by decide +kernel⟩

/-- At the crowded site the log does not keep pace; where a session is granted an observer after
nothing else was asked for, the hand-over is seamless. -/
theorem handsOver_of_granted_crowded :
    (CommitLog.HandsOver crowded.ensemble.log leaveFourth.2.log leaveFourth.2.log.roster ∧
      ¬ crowded.ensemble.log.KeepsPace leaveFourth.2.log.roster) ∧
    CommitLog.Seamless Ensemble.joinObserver Ensemble.attended.leaderOrElect.2.log
      (Ensemble.attended.request 0 Ensemble.firstSession Ensemble.joinObserver).2.log
      Ensemble.trioObserved := by
  have hobserved : (Ensemble.attended.request 0 Ensemble.firstSession
      Ensemble.joinObserver).1 = .done (.ok Ensemble.trioObserved) := by decide +kernel
  obtain ⟨hhands, hseams⟩ := handsOver_of_granted.1 crowded arises_crowded
    (.server (Prod.ext granted_leaveFourth rfl))
  refine ⟨⟨hhands, hseams.version_le_iff.not.1 (by decide +kernel)⟩, ?_⟩
  exact (handsOver_of_granted.2 Ensemble.attended Ensemble.reachable_attended
    (.session (Prod.ext hobserved rfl) (by decide +kernel))).2

end Site

end Quorate
