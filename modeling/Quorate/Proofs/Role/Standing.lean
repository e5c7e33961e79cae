import Quorate.Proofs.Roster.Members
import Quorate.Proofs.View.Replay
import Quorate.Server

/-!
# Roles and standings

A server keeps its role, and decides on it anew only when it learns a record that proposes a
roster or hears of an election. Even so the role is at all times one of those that belong to the
standing of the server in its roster (`Server.Suits.reactAll`, `Server.role_exact`). What proposes
a roster may be skipped, or make none, and then the decision finds the standing that the role has
already; what proposes none cannot change the standing.
-/

namespace Quorate

/-- The standing that servers in a role have, nothing if they are no members. -/
def Role.standing? : Role → Option Standing
  | .leader | .follower | .candidate => some .participant
  | .observing => some .observer
  | .departed => none

theorem Role.standing?_next (id : ServerId) (current : Role) (r : Roster)
    (outcome : Option Outcome) : (Role.next id current r outcome).standing? = r.standing? id := by
  unfold Role.next
  cases r.standing? id with
  | none => rfl
  | some standing =>
      cases standing with
      | observer => rfl
      | participant =>
          match outcome with
          | none => cases current <;> rfl
          | some .pending => rfl
          | some (.elected winner) =>
              by_cases h : winner = id
              · simp [h, standing?]
              · simp [h, standing?]

namespace Server

/-- What happens to a server from outside. -/
inductive Event where
  | learns (stamp : Stamp) (record : Record)
  | hears (outcome : Outcome)
  deriving DecidableEq

def react (s : Server) : Event → Server
  | .learns stamp record => s.learn stamp record
  | .hears outcome => s.hear outcome

def reactAll (s : Server) (events : List Event) : Server :=
  events.foldl react s

/-- The role is one that belongs to the standing of the server in its roster. -/
def Suits (s : Server) : Prop :=
  s.role.standing? = s.current.standing? s.settings.id

variable {s : Server}

theorem settings_react (s : Server) (event : Event) : (s.react event).settings = s.settings := by
  cases event with
  | hears outcome => rfl
  | learns stamp record =>
      rw [react, learn]
      split <;> rfl

theorem settings_reactAll (s : Server) (events : List Event) :
    (s.reactAll events).settings = s.settings := by
  induction events generalizing s with
  | nil => rfl
  | cons event events ih => exact (ih (s.react event)).trans (s.settings_react event)

theorem suits_ofSeed (settings : Settings) (seed : Roster) : (ofSeed settings seed).Suits :=
  Role.standing?_next settings.id .follower seed none

/-- Whatever the role was, it suits once it has been decided on. -/
theorem suits_reassess (s : Server) (outcome : Option Outcome) : (s.reassess outcome).Suits :=
  Role.standing?_next s.settings.id s.role s.current outcome

theorem Suits.react (h : s.Suits) (event : Event) : (s.react event).Suits := by
  cases event with
  | hears outcome => exact s.suits_reassess (some outcome)
  | learns stamp record =>
      rw [Server.react, learn]
      cases hkind : record.isReconfigure with
      | true => exact suits_reassess _ none
      | false =>
          have hcurrent : (s.view.learn s.settings.kept stamp record).current = s.view.current :=
            View.current_learn_of_not_isReconfigure hkind
          simpa [Suits, current, hcurrent] using h

theorem Suits.reactAll (h : s.Suits) (events : List Event) : (s.reactAll events).Suits := by
  induction events generalizing s with
  | nil => exact h
  | cons event events ih => exact ih (h.react event)

theorem Suits.votes_iff (h : s.Suits) :
    s.role = .leader ∨ s.role = .follower ∨ s.role = .candidate ↔
      s.settings.id ∈ s.current.participants := by
  rw [Roster.mem_participants_iff, ← h]
  cases s.role <;> simp [Role.standing?]

theorem Suits.observes_iff (h : s.Suits) :
    s.role = .observing ↔ s.settings.id ∈ s.current.observers := by
  rw [Roster.mem_observers_iff, ← h]
  cases s.role <;> simp [Role.standing?]

theorem Suits.departed_iff (h : s.Suits) :
    s.role = .departed ↔ s.settings.id ∉ s.current.ids := by
  rw [← Roster.standing?_eq_none_iff, ← h]
  cases s.role <;> simp [Role.standing?]

/-- Whatever a server has learnt and heard of, in whatever order, it leads, follows or stands for
election exactly if it is a participant of the roster that it applied last, observes exactly if it
is an observer of it, and has departed exactly if it is no member of it. -/
theorem role_exact (settings : Settings) (seed : Roster) (events : List Event) :
    let s := (ofSeed settings seed).reactAll events
    (s.role = .leader ∨ s.role = .follower ∨ s.role = .candidate ↔
        settings.id ∈ s.current.participants) ∧
      (s.role = .observing ↔ settings.id ∈ s.current.observers) ∧
      (s.role = .departed ↔ settings.id ∉ s.current.ids) := by
  intro s
  have hsuits : s.Suits := (suits_ofSeed settings seed).reactAll events
  have hsettings : s.settings = settings := settings_reactAll _ events
  rw [← hsettings]
  exact ⟨hsuits.votes_iff, hsuits.observes_iff, hsuits.departed_iff⟩

/-- A fourth server joins three others as an observer, hears that it was elected, is made a
participant, and is elected once more. A record that it has seen before does not take it back. -/
def ascent : List Event :=
  [.learns (.make 1 1) (.reconfigure ⟨.zero, .make 0 1,
      [.onPorts 1 10, .onPorts 2 20, .onPorts 3 30, .onPorts 4 40 .observer]⟩),
    .hears (.elected 4),
    .learns (.make 1 2) (.reconfigure ⟨.make 1 1, .make 2 0,
      [.onPorts 1 10, .onPorts 2 20, .onPorts 3 30, .onPorts 4 40]⟩),
    .hears (.elected 4),
    .learns (.make 1 1) (.reconfigure ⟨.make 2 0, .make 3 0, [.onPorts 1 10]⟩)]

example : (List.range 6).map (fun n => ((ofSeed { id := 4 } .trio).reactAll (ascent.take n)).role) =
    [.departed, .observing, .observing, .follower, .leader, .leader] := by
  decide +kernel

end Server

end Quorate
