import Quorate.Call.Reading
import Quorate.Proofs.Ensemble.Success
import Quorate.Proofs.Sessions.Observed

/-!
# Reads between pushes

A desk is an ensemble together with the pushes and the reads that are under way on its
sessions. A push comes to one session after the other, a read waits for the server that it
reads from and only then has its session observe what it found, and between any two of these
steps sessions are registered, observe, move and close, and the servers learn records or fall
behind. Without anything in between the steps are those of a push (`ensemble_push`) and of a
reading (`ensemble_reading`).

Each step leaves a session where it was or further on (`retains_perform`), and a read returns
nothing below what the session had observed when the read began. So whatever a session was
shown before, by an observation, a notification or a read that had returned, its reads do not
go back behind (`reads_monotone`).
-/

namespace Quorate

/-- A wait ends well with a roster of the version required. -/
theorem Wait.required_le_of_step {now : Nat} {c : Wait} {e : Ensemble} {r : Roster}
    (h : c.step now e = some (.ok r)) : c.required ≤ r.version := by
  unfold Wait.step at h
  split at h
  · cases h
  split at h
  · rename_i hreached
    cases h
    exact hreached
  · split at h <;> cases h

/-- A read of a session that was begun. -/
inductive Desk.Read where
  | waiting (call : Reading)
  /-- The server had the roster, and the session has still to observe it. -/
  | fetched (session : SessionId) (roster : Roster)
  | returned (result : Except Fault Roster)
  deriving DecidableEq

/-- An ensemble with the pushes and the reads on its sessions, the first ones first. -/
structure Desk where
  ensemble : Ensemble
  /-- The rosters that are pushed, and were no replays when that began. -/
  pushes : List Roster
  reads : List Desk.Read

namespace Desk

inductive Action where
  | register (session : SessionId) (server : ServerId) (observed : Version) (watch : Bool)
  | observe (session : SessionId) (version : Version)
  /-- A push begins. -/
  | announce (roster : Roster)
  /-- The push at a place comes to a session. -/
  | deliver (place : Nat) (session : SessionId)
  | reconnect (session : SessionId) (server : ServerId) (roster : Roster)
  | close (session : SessionId)
  | dropInbox (session : SessionId)
  /-- The clients read what is in their inboxes. -/
  | drain
  /-- A session begins to read from a server, whether it is connected to it or not. -/
  | read (session : SessionId) (server : ServerId) (now : Nat)
  /-- The read at a place looks at its server, and goes on waiting or has its roster. -/
  | look (place now : Nat)
  /-- The session of the read at a place observes the roster, and the read returns. -/
  | conclude (place : Nat)
  /-- Servers learn records, or whatever else may happen to them and their log. -/
  | evolve (log : CommitLog Server)

/-- The session that an action registers. -/
def Action.registers? : Action → Option SessionId
  | .register session _ _ _ => some session
  | _ => none

def sessions (s : Desk) : Sessions :=
  s.ensemble.sessions

def withSessions (s : Desk) (sessions : Sessions) : Desk :=
  { s with ensemble := { s.ensemble with sessions } }

/-- The desk after an operation on its sessions, unless that failed. -/
def attempt (s : Desk) (sessions : Except Fault Sessions) : Desk :=
  match sessions with
  | .ok sessions => s.withSessions sessions
  | .error _ => s

def read (s : Desk) (session : SessionId) (server : ServerId) (now : Nat) : Desk :=
  match Reading.start now s.ensemble session server with
  | .ok call => { s with reads := s.reads ++ [.waiting call] }
  | .error fault => { s with reads := s.reads ++ [.returned (.error fault)] }

def look (s : Desk) (place now : Nat) : Desk :=
  match s.reads[place]? with
  | some (.waiting call) =>
    match call.wait.step now s.ensemble with
    | some (.ok roster) => { s with reads := s.reads.set place (.fetched call.session roster) }
    | some (.error fault) => { s with reads := s.reads.set place (.returned (.error fault)) }
    | none => s
  | _ => s

def conclude (s : Desk) (place : Nat) : Desk :=
  match s.reads[place]? with
  | some (.fetched session roster) =>
    match s.sessions.observe session roster.version with
    | .ok sessions =>
      { s.withSessions sessions with reads := s.reads.set place (.returned (.ok roster)) }
    | .error fault => { s with reads := s.reads.set place (.returned (.error fault)) }
  | _ => s

def perform (s : Desk) : Action → Desk
  | .register session server observed watch =>
    s.withSessions (s.sessions.register session server observed watch)
  | .observe session version => s.attempt (s.sessions.observe session version)
  | .announce roster =>
    match s.sessions.announce roster with
    | some sessions => { s.withSessions sessions with pushes := s.pushes ++ [roster] }
    | none => s
  | .deliver place session =>
    match s.pushes[place]? with
    | some roster => s.withSessions (s.sessions.deliver roster session)
    | none => s
  | .reconnect session server roster => s.attempt (s.sessions.reconnect session server roster)
  | .close session => s.attempt (s.sessions.close session)
  | .dropInbox session => s.withSessions (s.sessions.dropInbox session)
  | .drain => s.withSessions s.sessions.drained
  | .read session server now => s.read session server now
  | .look place now => s.look place now
  | .conclude place => s.conclude place
  | .evolve log => { s with ensemble := { s.ensemble with log } }

/-- The desk of an ensemble whose sessions are all still to be registered. -/
def opening (e : Ensemble) : Desk :=
  ⟨{ e with sessions := .empty }, [], []⟩

def run (e : Ensemble) (actions : List Action) : Desk :=
  actions.foldl perform (opening e)

theorem foldl_deliver_of_none {s : Desk} {place : Nat} (h : s.pushes[place]? = none)
    (ids : List SessionId) : (ids.map (Action.deliver place)).foldl perform s = s := by
  induction ids with
  | nil => rfl
  | cons id ids ih =>
      have hstep : s.perform (.deliver place id) = s := by
        rw [perform, h]
      rw [List.map_cons, List.foldl_cons, hstep, ih]

theorem foldl_deliver_of_some {s : Desk} {place : Nat} {r : Roster}
    (h : s.pushes[place]? = some r) (ids : List SessionId) :
    (ids.map (Action.deliver place)).foldl perform s =
      s.withSessions (ids.foldl (Sessions.deliver r) s.sessions) := by
  induction ids generalizing s with
  | nil => rfl
  | cons id ids ih =>
      have hstep : s.perform (.deliver place id) = s.withSessions (s.sessions.deliver r id) := by
        rw [perform, h]
      rw [List.map_cons, List.foldl_cons, hstep]
      exact ih (s := s.withSessions _) h

/-- A push that nothing comes in between is made of these steps. -/
theorem ensemble_push (s : Desk) (r : Roster) :
    ((Action.announce r :: s.sessions.registered.keys.map (.deliver s.pushes.length)).foldl
      perform s).ensemble = s.ensemble.push r := by
  have hpush := Sessions.push_eq_foldl_deliver (s := s.sessions) (r := r)
    s.sessions.registered.nodup_keys fun id session => Keyed.mem_keys_of_get?
  rw [List.foldl_cons, Ensemble.push, show s.ensemble.sessions = s.sessions from rfl, hpush,
    perform]
  cases hannounce : s.sessions.announce r with
  | none =>
      dsimp only
      rw [foldl_deliver_of_none (List.getElem?_eq_none (le_refl _))]
      rfl
  | some sessions =>
      dsimp only
      rw [foldl_deliver_of_some List.getElem?_concat_length]
      rfl

/-- A read that nothing comes in between is made of these steps. -/
theorem ensemble_reading {s : Desk} {place now : Nat} {call : Reading}
    (h : s.reads[place]? = some (.waiting call)) {result : Except Fault Roster} {e : Ensemble}
    (hstep : call.step now s.ensemble = some (result, e)) :
    ((s.perform (.look place now)).perform (.conclude place)).ensemble = e ∧
      ((s.perform (.look place now)).perform (.conclude place)).reads =
        s.reads.set place (.returned result) := by
  have hset (read : Read) : (s.reads.set place read)[place]? = some read :=
    List.getElem?_set_self (List.getElem?_eq_some_iff.1 h).1
  obtain ⟨found, hwait, hanswer⟩ := Option.map_eq_some_iff.1 hstep
  simp only [perform, look, h, hwait]
  cases found with
  | error fault =>
      cases hanswer
      simp only [conclude, hset, and_self]
  | ok roster =>
      dsimp only at hanswer
      simp only [conclude, hset, List.set_set, sessions]
      split at hanswer
      · rename_i hobserve
        cases hanswer
        rw [hobserve]
        exact ⟨rfl, rfl⟩
      · rename_i hobserve
        cases hanswer
        rw [hobserve]
        exact ⟨rfl, rfl⟩

/-- What an action shows to a session: a version that it observes, the roster of a push that
reaches it, or the roster that a read of it returns. -/
inductive Shows (s : Desk) : Action → SessionId → Version → Prop
  | observed {session : SessionId} {version : Version} {sessions : Sessions}
      (observes : s.sessions.observe session version = .ok sessions) :
      Shows s (.observe session version) session version
  | notified {place : Nat} {session : SessionId} {roster : Roster}
      (pushed : s.pushes[place]? = some roster) (reached : s.sessions.reaches session = true) :
      Shows s (.deliver place session) session roster.version
  | returned {place : Nat} {session : SessionId} {roster : Roster} {sessions : Sessions}
      (fetched : s.reads[place]? = some (.fetched session roster))
      (observes : s.sessions.observe session roster.version = .ok sessions) :
      Shows s (.conclude place) session roster.version

variable {e : Ensemble} {s : Desk} {action : Action} {id : SessionId} {actions : List Action}

theorem retains_attempt {sessions : Except Fault Sessions}
    (h : ∀ after, sessions = .ok after → s.sessions.Retains id after) :
    s.sessions.Retains id (s.attempt sessions).sessions := by
  cases sessions with
  | error fault => exact Sessions.retains_of_eq rfl
  | ok after => exact h after rfl

/-- No action takes a session back but its registration. -/
theorem retains_perform (h : action.registers? ≠ some id) :
    s.sessions.Retains id (s.perform action).sessions := by
  have hrefl : s.sessions.Retains id s.sessions := Sessions.retains_of_eq rfl
  cases action with
  | register session server observed watch =>
      exact Sessions.retains_register (fun heq => h (congrArg some heq)) server observed watch
  | observe session version =>
      exact retains_attempt fun _ => Sessions.retains_observe
  | announce roster =>
      unfold perform Sessions.announce
      dsimp only
      split
      · rename_i hannounced
        split at hannounced
        · cases hannounced
        · cases hannounced
          exact Sessions.retains_of_eq rfl
      · exact hrefl
  | deliver place session =>
      unfold perform
      dsimp only
      split
      · exact Sessions.retains_deliver _
      · exact hrefl
  | reconnect session server roster =>
      exact retains_attempt fun _ => Sessions.retains_reconnect
  | close session =>
      exact retains_attempt fun _ => Sessions.retains_close
  | dropInbox session => exact Sessions.retains_of_eq rfl
  | drain => exact Sessions.retains_of_eq rfl
  | read session server now =>
      unfold perform read
      dsimp only
      split <;> exact hrefl
  | look place now =>
      unfold perform look
      dsimp only
      split
      · split <;> exact hrefl
      · exact hrefl
  | conclude place =>
      unfold perform conclude
      dsimp only
      split
      · split
        · rename_i hobserve
          exact Sessions.retains_observe hobserve
        · exact hrefl
      · exact hrefl
  | evolve log => exact hrefl

theorem retains_foldl (h : ∀ action ∈ actions, action.registers? ≠ some id) :
    s.sessions.Retains id (actions.foldl perform s).sessions := by
  induction actions generalizing s with
  | nil => exact Sessions.retains_of_eq rfl
  | cons action actions ih =>
      obtain ⟨hfirst, hrest⟩ := List.forall_mem_cons.1 h
      exact (retains_perform hfirst).trans (ih hrest)

/-- A session that there is was registered. -/
theorem exists_registers {x : Session}
    (h : (run e actions).sessions.registered.get? id = some x) :
    ∃ action ∈ actions, action.registers? = some id := by
  by_contra hnone
  rw [not_exists] at hnone
  have hnever : ∀ action ∈ actions, action.registers? ≠ some id :=
    fun action hin heq => hnone action ⟨hin, heq⟩
  obtain ⟨_, hbefore, _⟩ := retains_foldl (s := opening e) hnever x h
  cases hbefore

theorem run_take_of_le (e : Ensemble) (actions : List Action) {i j : Nat} (hij : i ≤ j) :
    run e (actions.take j) = ((actions.take j).drop i).foldl perform (run e (actions.take i)) := by
  have hsplit := List.take_append_drop i (actions.take j)
  rw [List.take_take, Nat.min_eq_left hij] at hsplit
  rw [run, run, ← List.foldl_append, hsplit]

/-- Where every session is registered once, one that there is does not go back any more. -/
theorem retains_run (honce : (actions.filterMap Action.registers?).Nodup) {i j : Nat}
    (hij : i ≤ j) {x : Session}
    (hx : (run e (actions.take i)).sessions.registered.get? id = some x) :
    (run e (actions.take i)).sessions.Retains id (run e (actions.take j)).sessions := by
  obtain ⟨first, hfirst, hregisters⟩ := exists_registers hx
  have hbefore : id ∈ (actions.take i).filterMap Action.registers? :=
    List.mem_filterMap.2 ⟨first, hfirst, hregisters⟩
  rw [← List.take_append_drop i actions, List.filterMap_append] at honce
  rw [run_take_of_le e actions hij]
  refine retains_foldl fun action haction hagain => ?_
  rw [List.drop_take] at haction
  have hafter : id ∈ (actions.drop i).filterMap Action.registers? :=
    List.mem_filterMap.2 ⟨action, List.mem_of_mem_take haction, hagain⟩
  exact List.disjoint_of_nodup_append honce hbefore hafter

/-- What a session was shown it has observed. -/
theorem exists_observed_of_shows {version : Version} (h : s.Shows action id version) :
    ∃ x, (s.perform action).sessions.registered.get? id = some x ∧ version ≤ x.observed := by
  cases h with
  | observed observes =>
      obtain ⟨x, _, hsessions⟩ := Sessions.observe_eq_ok_iff.1 observes
      refine ⟨x.observe version, ?_, Sessions.le_observe x version⟩
      rw [perform, observes, attempt, hsessions]
      exact (Keyed.get?_insert _ _ _ _).trans (if_pos rfl)
  | @notified place _ roster pushed reached =>
      obtain ⟨x, hx, _⟩ := (Option.any_eq_true _ _).1 (Bool.and_eq_true_iff.1 reached).1
      refine ⟨Sessions.pushedTo roster true x, ?_, Sessions.le_pushedTo_of_reached roster x⟩
      rw [perform, pushed]
      refine (Sessions.registered_deliver _ _ _ _).trans ?_
      rw [if_pos rfl, reached, hx]
      rfl
  | @returned place _ roster _ fetched observes =>
      obtain ⟨x, _, hsessions⟩ := Sessions.observe_eq_ok_iff.1 observes
      refine ⟨x.observe roster.version, ?_, Sessions.le_observe x roster.version⟩
      rw [perform, conclude, fetched]
      dsimp only
      rw [observes, hsessions]
      exact (Keyed.get?_insert _ _ _ _).trans (if_pos rfl)

theorem reads_attempt (s : Desk) (sessions : Except Fault Sessions) :
    (s.attempt sessions).reads = s.reads := by
  cases sessions <;> rfl

/-- The roster that a read returns, if it returns one, is such a roster. -/
def Read.Yields (P : Roster → Prop) : Read → Prop
  | .waiting call => ∀ roster, call.wait.required ≤ roster.version → P roster
  | .fetched _ roster => P roster
  | .returned result => ∀ roster, result = .ok roster → P roster

variable {P : Roster → Prop} {place : Nat} {read : Read}

/-- A read at some place comes further, as a read of the same promise. -/
theorem exists_yields_set {other : Nat} {before after : Read} (hin : s.reads[place]? = some read)
    (hread : read.Yields P) (hbefore : s.reads[other]? = some before)
    (hafter : before.Yields P → after.Yields P) :
    ∃ later, (s.reads.set other after)[place]? = some later ∧ later.Yields P := by
  by_cases hplace : other = place
  · subst hplace
    cases hbefore.symm.trans hin
    exact ⟨after, List.getElem?_set_self (List.getElem?_eq_some_iff.1 hin).1, hafter hread⟩
  · exact ⟨read, (List.getElem?_set_ne hplace).trans hin, hread⟩

theorem exists_yields_perform (hin : s.reads[place]? = some read) (hread : read.Yields P)
    (action : Action) :
    ∃ later, (s.perform action).reads[place]? = some later ∧ later.Yields P := by
  have hsame : ∃ later, s.reads[place]? = some later ∧ later.Yields P := ⟨read, hin, hread⟩
  cases action with
  | register session server observed watch => exact hsame
  | observe session version =>
      rw [perform, reads_attempt]
      exact hsame
  | announce roster =>
      unfold perform
      dsimp only
      split <;> exact hsame
  | deliver other session =>
      unfold perform
      dsimp only
      split <;> exact hsame
  | reconnect session server roster =>
      rw [perform, reads_attempt]
      exact hsame
  | close session =>
      rw [perform, reads_attempt]
      exact hsame
  | dropInbox session => exact hsame
  | drain => exact hsame
  | read session server now =>
      have hkept (more : List Read) : (s.reads ++ more)[place]? = some read := by
        rw [List.getElem?_append_left (List.getElem?_eq_some_iff.1 hin).1, hin]
      unfold perform Desk.read
      dsimp only
      split <;> exact ⟨read, hkept _, hread⟩
  | look other now =>
      unfold perform look
      dsimp only
      split
      · rename_i call hwaiting
        split
        · rename_i roster hstep
          exact exists_yields_set hin hread hwaiting
            fun hcall => hcall roster (Wait.required_le_of_step hstep)
        · exact exists_yields_set hin hread hwaiting fun _ _ hok => by cases hok
        · exact hsame
      · exact hsame
  | conclude other =>
      unfold perform conclude
      dsimp only
      split
      · rename_i session roster hfetched
        split
        · refine exists_yields_set hin hread hfetched fun hroster _ hok => ?_
          cases hok
          exact hroster
        · exact exists_yields_set hin hread hfetched fun _ _ hok => by cases hok
      · exact hsame
  | evolve log => exact hsame

theorem exists_yields_foldl (hin : s.reads[place]? = some read) (hread : read.Yields P)
    (actions : List Action) :
    ∃ later, (actions.foldl perform s).reads[place]? = some later ∧ later.Yields P := by
  induction actions generalizing s read with
  | nil => exact ⟨read, hin, hread⟩
  | cons action actions ih =>
      obtain ⟨later, hlater, hyields⟩ := exists_yields_perform hin hread action
      exact ih hlater hyields

/-- A read returns nothing below what its session has observed when it begins. -/
theorem exists_yields_read (s : Desk) (session : SessionId) (server : ServerId) (now : Nat) :
    ∃ read, (s.perform (.read session server now)).reads[s.reads.length]? = some read ∧
      read.Yields fun roster =>
        ∃ x, s.sessions.get session = .ok x ∧ x.observed ≤ roster.version := by
  unfold perform Desk.read
  dsimp only
  split
  · rename_i call hstart
    obtain ⟨x, hx, hstart⟩ := bind_eq_ok_iff.1 hstart
    split at hstart
    · cases hstart
    · cases hstart
      exact ⟨_, List.getElem?_concat_length, fun _ hreached => ⟨x, hx, hreached⟩⟩
  · exact ⟨_, List.getElem?_concat_length, fun _ hok => by cases hok⟩

/-- What a session has observed never decreases while it is registered, and every read that
returns gives a roster whose version is at least what the session had observed when the read
began, so at least any version that was shown to the session before. -/
theorem reads_monotone (e : Ensemble) (actions : List Action)
    (honce : (actions.filterMap Action.registers?).Nodup) :
    (∀ i j, i ≤ j → ∀ id x y,
      (run e (actions.take i)).sessions.get id = .ok x →
      (run e (actions.take j)).sessions.get id = .ok y → x.observed ≤ y.observed) ∧
    ∀ i session server now roster, actions[i]? = some (.read session server now) →
      (run e actions).reads[(run e (actions.take i)).reads.length]? =
        some (.returned (.ok roster)) →
      (∃ x, (run e (actions.take i)).sessions.get session = .ok x ∧
        x.observed ≤ roster.version) ∧
      ∀ j < i, ∀ action version, actions[j]? = some action →
        (run e (actions.take j)).Shows action session version → version ≤ roster.version := by
  have hmono {i j : Nat} (hij : i ≤ j) {id : SessionId} {x y : Session}
      (hx : (run e (actions.take i)).sessions.registered.get? id = some x)
      (hy : (run e (actions.take j)).sessions.registered.get? id = some y) :
      x.observed ≤ y.observed := by
    obtain ⟨before, hbefore, hle⟩ := retains_run honce hij hx y hy
    cases hbefore.symm.trans hx
    exact hle
  have htake {i : Nat} {action : Action} (hi : actions[i]? = some action) :
      run e (actions.take (i + 1)) = (run e (actions.take i)).perform action := by
    rw [run, List.take_add_one, hi, Option.toList_some, List.foldl_append]
    rfl
  refine ⟨fun i j hij id x y hx hy => hmono hij (Sessions.get_eq_ok_iff.1 hx)
    (Sessions.get_eq_ok_iff.1 hy), ?_⟩
  intro i session server now roster hi hreturned
  obtain ⟨read, hread, hyields⟩ :=
    exists_yields_read (run e (actions.take i)) session server now
  rw [← htake hi] at hread
  have hlt : i + 1 ≤ actions.length := (List.getElem?_eq_some_iff.1 hi).1
  have hrest := run_take_of_le e actions hlt
  rw [List.take_length] at hrest
  rw [hrest] at hreturned
  obtain ⟨later, hlater, hyields⟩ := exists_yields_foldl hread hyields _
  cases hlater.symm.trans hreturned
  obtain ⟨x, hx, hle⟩ := hyields roster rfl
  refine ⟨⟨x, hx, hle⟩, fun j hji action version hj hshows => ?_⟩
  obtain ⟨y, hy, hshown⟩ := exists_observed_of_shows hshows
  rw [← htake hj] at hy
  exact hshown.trans ((hmono hji hy (Sessions.get_eq_ok_iff.1 hx)).trans hle)

/-- A session hears of a roster, and then begins a read from a server that has not learnt it
yet. -/
def lagging : List Action :=
  [.register 7 1 .zero true, .announce Ensemble.trioObserved, .deliver 0 7, .read 7 2 0,
    .look 0 0,
    .evolve (Ensemble.attended.request 0 Ensemble.firstSession Ensemble.joinObserver).2.log,
    .look 0 0, .conclude 0]

theorem reads_monotone_lagging :
    (lagging.filterMap Action.registers?).Nodup ∧
    (run .trio lagging).reads[0]? = some (.returned (.ok Ensemble.trioObserved)) ∧
    (∃ x, (run .trio (lagging.take 3)).sessions.get 7 = .ok x ∧
      x.observed ≤ Ensemble.trioObserved.version) ∧
    (.make 1 2 : Version) ≤ Ensemble.trioObserved.version := by
  have honce : (lagging.filterMap Action.registers?).Nodup := by decide
  have hreturned : (run .trio lagging).reads[0]? =
      some (.returned (.ok Ensemble.trioObserved)) := by decide +kernel
  have hreads := (reads_monotone .trio lagging honce).2 3 7 2 0 Ensemble.trioObserved rfl hreturned
  have hreached : (run .trio (lagging.take 2)).sessions.reaches 7 = true := by decide +kernel
  exact ⟨honce, hreturned, hreads.1, hreads.2 2 (by decide) (.deliver 0 7)
    Ensemble.trioObserved.version rfl (.notified rfl hreached)⟩

end Desk

end Quorate
