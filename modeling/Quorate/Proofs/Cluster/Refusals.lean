import Quorate.Proofs.Call.Refusal
import Quorate.Proofs.Cluster.Consistent

/-!
# Refusals in a run of concurrent calls

The calls that a run refuses because another one is in progress are those that were barred when
they asked (`Cluster.refusals_exact`). That concerns requests that expect a version as well: one
whose version is no longer current is not told so if a third request has taken the place, after
the first was committed and before the second was resumed (`Cluster.inProgress_threeWayRun`).
-/

namespace Quorate

namespace Cluster

variable {s : Cluster} {place : Nat}

/-- How far the call at a place has come, unless it was given up. -/
def progress? (s : Cluster) (place : Nat) :
    Option (Progress Reconfiguration (Except Fault Roster)) :=
  s.calls[place]?.bind (·.progress)

/-- The call at a place was refused since another one was in progress. -/
def Refused (s : Cluster) (place : Nat) : Prop :=
  s.progress? place = some (.done (.error .inProgress))

instance (s : Cluster) (place : Nat) : Decidable (s.Refused place) :=
  inferInstanceAs (Decidable (_ = _))

/-- The call at a place is barred. -/
def Bars (s : Cluster) (place : Nat) : Prop :=
  ∃ c, s.progress? place = some (.going c) ∧ c.Barred s.ensemble

theorem exists_call?_iff {c : Reconfiguration} :
    (∃ a, s.call? place = some (a, c)) ↔ s.progress? place = some (.going c) := by
  simp only [call?_eq_some_iff, progress?, Option.bind_eq_some_iff]

theorem progress?_record {i : Nat} {a : Attempt} (ha : s.calls[place]? = some a)
    (progress : Option (Progress Reconfiguration (Except Fault Roster))) (e : Ensemble) :
    (s.record place a progress e).progress? i =
      if i = place then progress else s.progress? i := by
  rw [progress?, calls_record ha]
  split <;> rfl

theorem progress?_advance {i now : Nat} {c : Reconfiguration}
    (hc : s.progress? place = some (.going c))
    {p : Progress Reconfiguration (Except Fault Roster) × Ensemble}
    (hp : c.step now s.ensemble = some p) :
    (s.advance place now).progress? i = if i = place then some p.1 else s.progress? i := by
  obtain ⟨a, ha⟩ := exists_call?_iff.2 hc
  rw [advance, ha]
  dsimp only
  rw [hp]
  exact progress?_record (call?_eq_some_iff.1 ha).1 _ _

theorem refused_advance (s : Cluster) (place i now : Nat) :
    (s.advance i now).Refused place ↔ s.Refused place ∨ i = place ∧ s.Bars place := by
  cases hcall : s.call? i with
  | none =>
      have hsame : s.advance i now = s := by
        rw [advance, hcall]
      rw [hsame, or_iff_left]
      rintro ⟨rfl, c, hc, _⟩
      obtain ⟨a, ha⟩ := exists_call?_iff.2 hc
      cases hcall.symm.trans ha
  | some pair =>
      obtain ⟨a, c⟩ := pair
      have hc := exists_call?_iff.1 ⟨a, hcall⟩
      cases hstep : c.step now s.ensemble with
      | none =>
          have hsame : s.advance i now = s := by
            rw [advance, hcall]
            dsimp only
            rw [hstep]
          rw [hsame, or_iff_left]
          rintro ⟨rfl, d, hd, hbarred⟩
          cases hc.symm.trans hd
          obtain ⟨p, hp⟩ := Reconfiguration.exists_step_of_barred hbarred now
          cases hstep.symm.trans hp
      | some p =>
          rw [Refused, progress?_advance hc hstep]
          by_cases hi : place = i
          · subst hi
            rw [if_pos rfl, Option.some.injEq, Refused, hc]
            refine (Reconfiguration.refused_step_iff hstep).trans ?_
            constructor
            · intro hbarred
              exact Or.inr ⟨rfl, c, hc, hbarred⟩
            · rintro (h | ⟨_, d, hd, hbarred⟩)
              · cases h
              · cases hc.symm.trans hd
                exact hbarred
          · rw [if_neg hi, Refused, or_iff_left]
            exact fun h => hi h.1.symm

theorem refused_abandon (s : Cluster) (place i : Nat) :
    (s.abandon i).Refused place ↔ s.Refused place := by
  cases hcall : s.call? i with
  | none => rw [abandon, hcall]
  | some pair =>
      obtain ⟨a, c⟩ := pair
      have hc := exists_call?_iff.1 ⟨a, hcall⟩
      rw [abandon, hcall]
      dsimp only
      rw [Refused, progress?_record (call?_eq_some_iff.1 hcall).1]
      split
      · rename_i hi
        subst hi
        rw [Refused, hc]
        exact iff_of_false nofun nofun
      · exact Iff.rfl

/-- An action refuses the call at a place if the call goes on while it is barred. -/
theorem refused_perform (s : Cluster) (action : Action) (place : Nat) :
    (s.perform action).Refused place ↔
      s.Refused place ∨ ∃ now, action = .advance place now ∧ s.Bars place := by
  have helse {s' : Cluster} (hcalls : s'.calls = s.calls)
      (hother : ∀ now, action ≠ .advance place now) : s'.Refused place ↔
        s.Refused place ∨ ∃ now, action = .advance place now ∧ s.Bars place := by
    rw [or_iff_left fun ⟨now, h, _⟩ => hother now h, Refused, Refused, progress?, progress?,
      hcalls]
  cases action with
  | spawn id => exact helse rfl (by simp)
  | stop id => exact helse rfl (by simp)
  | start id => exact helse rfl (by simp)
  | elect => exact helse rfl (by simp)
  | resign leader => exact helse rfl (by simp)
  | establish leader => exact helse rfl (by simp)
  | write sender record plain => exact helse rfl (by simp)
  | relink link honest => exact helse rfl (by simp)
  | clients sessions serial => exact helse rfl (by simp)
  | call server request =>
      have hnone : ¬ ∃ now, Action.call server request = .advance place now ∧ s.Bars place := by
        simp
      rw [or_iff_left hnone, Refused, Refused, progress?, progress?, perform,
        List.getElem?_append]
      split
      · exact Iff.rfl
      · rename_i hbeyond
        rw [List.getElem?_eq_none (Nat.le_of_not_lt hbeyond)]
        refine iff_of_false (fun h => ?_) (by simp)
        obtain ⟨a, ha, hprogress⟩ := Option.bind_eq_some_iff.1 h
        cases List.mem_singleton.1 (List.mem_of_getElem? ha)
        cases hprogress
  | advance i now =>
      refine (s.refused_advance place i now).trans (or_congr_right ?_)
      constructor
      · rintro ⟨rfl, hbars⟩
        exact ⟨now, rfl, hbars⟩
      · rintro ⟨_, heq, hbars⟩
        cases heq
        exact ⟨rfl, hbars⟩
  | abandon i =>
      refine (s.refused_abandon place i).trans (or_iff_left ?_).symm
      rintro ⟨_, h, _⟩
      cases h

theorem not_bars_of_not_refused {template : Settings} {seed : Roster} {actions : List Action}
    (now : Nat) (h : ¬ (run template seed (actions ++ [.advance place now])).Refused place) :
    ¬ (run template seed actions).Bars place := by
  intro hbars
  rw [run_concat, refused_perform] at h
  exact h (Or.inr ⟨now, rfl, hbars⟩)

/-- The calls that a run refuses are those that went on while they were barred. -/
theorem refused_run (template : Settings) (seed : Roster) (actions : List Action)
    (place : Nat) :
    (run template seed actions).Refused place ↔ ∃ k now,
      actions[k]? = some (.advance place now) ∧
        (run template seed (actions.take k)).Bars place := by
  have hrun := foldl_iff_exists (Refused · place)
    (fun (s : Cluster) action => ∃ now, action = .advance place now ∧ s.Bars place)
    (show ¬ (initial template seed).Refused place by simp [Refused, progress?, initial])
    actions fun k a _ => refused_perform _ a place
  refine hrun.trans ⟨?_, ?_⟩
  · rintro ⟨k, _, hk, now, rfl, hbars⟩
    exact ⟨k, now, hk, hbars⟩
  · rintro ⟨k, now, hk, hbars⟩
    exact ⟨k, _, hk, now, rfl, hbars⟩

/-- What a request is told when it asks while it is not barred, though the version that it
expects is not the one that its server has applied. -/
theorem progress?_of_stale {ticket : Nat} {c : Reconfiguration}
    (hc : s.progress? place = some (.going c)) (hstage : c.stage = .asking ticket) {t : Server}
    (ht : s.ensemble.server c.server = .ok t) {version : Version}
    (hexpected : c.request.expected = some version) (hstale : version ≠ t.current.version)
    (hopen : ¬ s.Bars place) (now : Nat) :
    ∃ p, (s.advance place now).progress? place = some p ∧
      (p = .done (.error (.staleVersion version t.current.version)) ∨
        (s.ensemble.log.leader ≠ some c.server ∧
          p = .done (.error (.notLeader s.ensemble.log.leader))) ∨
        t.inFlight = some version ∧ p = .going { c with stage := .parked ticket }) := by
  have hnot : ¬ c.Barred s.ensemble := fun hbarred => hopen ⟨c, hc, hbarred⟩
  rcases Reconfiguration.step_of_stale hstage ht hexpected hstale hnot now with
    ⟨e', hstep⟩ | ⟨hfollows, hstep⟩ | ⟨hplace, hstep⟩
  · exact ⟨_, (progress?_advance hc hstep).trans (if_pos rfl), Or.inl rfl⟩
  · exact ⟨_, (progress?_advance hc hstep).trans (if_pos rfl), Or.inr (Or.inl ⟨hfollows, rfl⟩)⟩
  · exact ⟨_, (progress?_advance hc hstep).trans (if_pos rfl), Or.inr (Or.inr ⟨hplace, rfl⟩)⟩

/-- The calls that a run refuses since another one is in progress are those that were barred
when they asked. A request that is not barred and expects a version that is not current is told
so, or that the server does not lead, or waits for the proposal on that very version. -/
theorem refusals_exact (template : Settings) (seed : Roster) (actions : List Action)
    (place : Nat) :
    ((run template seed actions).Refused place ↔ ∃ k now,
      actions[k]? = some (.advance place now) ∧
        (run template seed (actions.take k)).Bars place) ∧
    ∀ (c : Reconfiguration) (ticket : Nat) (t : Server) (version : Version) (now : Nat),
      (run template seed actions).progress? place = some (.going c) →
      c.stage = .asking ticket →
      (run template seed actions).ensemble.server c.server = .ok t →
      c.request.expected = some version → version ≠ t.current.version →
      ¬ (run template seed actions).Bars place →
      ∃ p, (run template seed (actions ++ [.advance place now])).progress? place = some p ∧
        (p = .done (.error (.staleVersion version t.current.version)) ∨
          ((run template seed actions).ensemble.log.leader ≠ some c.server ∧
            p = .done (.error (.notLeader (run template seed actions).ensemble.log.leader))) ∨
          t.inFlight = some version ∧ p = .going { c with stage := .parked ticket }) := by
  refine ⟨refused_run template seed actions place, ?_⟩
  intro c ticket t version now hc hstage ht hexpected hstale hopen
  rw [run_concat]
  exact progress?_of_stale hc hstage ht hexpected hstale hopen now

/-- Two requests that expect the first version: the one is committed after it was delayed, and
the other one, which had to wait, is about to be resumed. -/
def settledRun : List Action :=
  [.spawn 1, .spawn 2, .spawn 3, .elect,
    .relink [⟨50, .forwarded⟩, ⟨50, .forwarded⟩] (by
      intro t ht
      rcases List.mem_pair.1 ht with rfl | rfl <;> exact trivial),
    .call 3 ⟨.incremental [] [1], some .zero⟩, .advance 0 0, .advance 0 0, .advance 0 0,
    .call 3 ⟨.incremental [] [2], some .zero⟩, .advance 1 0, .advance 1 0, .advance 0 50,
    .advance 0 50]

/-- The second one is resumed at once. -/
def resumedRun : List Action :=
  settledRun ++ [.advance 1 50]

/-- A third request takes the place before the second one is resumed. -/
def threeWayRun : List Action :=
  settledRun ++ [.call 3 ⟨.incremental [.onPorts 4 40 .observer] [], none⟩,
    .advance 2 50, .advance 2 50, .advance 2 50, .advance 1 50, .advance 1 50]

/-- The second request is refused after the third one took the place, and it was barred. If it
asks right after it was resumed it is told that its version is stale, as is to be expected. -/
theorem refusals_exact_threeWayRun :
    ((run {} .trio threeWayRun).Refused 1 ∧ ∃ k now,
      threeWayRun[k]? = some (.advance 1 now) ∧
        (run {} .trio (threeWayRun.take k)).Bars 1) ∧
    (run {} .trio resumedRun).progress? 1 =
      some (.going ⟨3, ⟨.incremental [] [2], some .zero⟩, .asking 1⟩) ∧
    ¬ (run {} .trio resumedRun).Bars 1 ∧
    ∃ t, (run {} .trio resumedRun).ensemble.server 3 = .ok t ∧ .zero ≠ t.current.version ∧
      ∃ p, (run {} .trio (resumedRun ++ [.advance 1 50])).progress? 1 = some p ∧
        (p = .done (.error (.staleVersion .zero t.current.version)) ∨
          ((run {} .trio resumedRun).ensemble.log.leader ≠ some 3 ∧
            p = .done (.error (.notLeader (run {} .trio resumedRun).ensemble.log.leader))) ∨
          t.inFlight = some .zero ∧
            p = .going ⟨3, ⟨.incremental [] [2], some .zero⟩, .parked 1⟩) := by
  have hrefused : (run {} .trio threeWayRun).Refused 1 := by decide +kernel
  have hbarred := (refusals_exact {} .trio threeWayRun 1).1.1 hrefused
  have hasks : (run {} .trio resumedRun).progress? 1 =
      some (.going ⟨3, ⟨.incremental [] [2], some .zero⟩, .asking 1⟩) := by decide +kernel
  have hopen : ¬ (run {} .trio resumedRun).Bars 1 :=
    not_bars_of_not_refused 50 (by decide +kernel)
  have hserver : ((run {} .trio resumedRun).ensemble.server 3).map (·.current.version) =
      .ok ⟨0x100000001⟩ := by decide +kernel
  obtain ⟨t, ht, hversion⟩ := map_eq_ok_iff.1 hserver
  have hstale : .zero ≠ t.current.version := by
    rw [hversion]
    decide
  have hanswer := (refusals_exact {} .trio resumedRun 1).2
    ⟨3, ⟨.incremental [] [2], some .zero⟩, .asking 1⟩ 1 t .zero 50 hasks rfl ht rfl hstale hopen
  exact ⟨⟨hrefused, hbarred⟩, hasks, hopen, t, ht, hstale, hanswer⟩

/-- The second request expects a version that is not current any more, and it is answered by the
server that has led all the time; but it is told that another request is in progress. -/
theorem inProgress_threeWayRun :
    ((run {} .trio threeWayRun).calls[1]?.map fun a => (a.request.expected, a.progress)) =
        some (some .zero, some (.done (.error .inProgress))) ∧
      ((run {} .trio threeWayRun).ensemble.server 3).map (·.current.version) =
        .ok ⟨0x100000001⟩ ∧
      (run {} .trio threeWayRun).ensemble.log.leader = some 3 := by
  decide +kernel

end Cluster

end Quorate
