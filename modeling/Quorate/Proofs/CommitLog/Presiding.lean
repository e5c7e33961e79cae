import Quorate.Proofs.Role

/-!
# Servers that preside

A server presides over a log if it runs and takes itself for the leader, and it strays if
the log has another leader than it or none. Who strays after an operation has strayed before
it (`Orderly`), since an election is heard of by every server that runs and by no other. The
one exception follows from the same: a leader that is stopped does not hear that it leads no
more, so it may come back with its old role when it is started (`Revives.leads`). That it
does so is the only way in which a server ever comes to stray (`strays_start`,
`Led.strays_of_revives`).
-/

namespace Quorate

namespace Attachment

/-- The server runs and takes itself for the leader. -/
def presides (a : Attachment Server) : Bool :=
  a.online && a.replica.any (·.leads)

/-- The server has the id that it is attached under. -/
def Named (id : ServerId) (a : Attachment Server) : Prop :=
  ∀ s, a.replica = some s → s.settings.id = id

variable {a : Attachment Server} {id : ServerId} {entries : List Entry} {outcome : Outcome}

theorem presides_iff :
    a.presides = true ↔ a.online = true ∧ ∃ s, a.replica = some s ∧ s.leads = true := by
  rw [presides, Bool.and_eq_true, Option.any_eq_true]

theorem Named.hear (h : a.Named id) : (a.hear outcome).Named id := by
  intro s hs
  obtain ⟨t, ht, rfl⟩ := Option.map_eq_some_iff.1 hs
  exact h t ht

theorem Named.catchUp (h : a.Named id) : (a.catchUp entries).Named id := by
  cases hs : a.replica with
  | none =>
      rw [Attachment.catchUp, hs]
      exact h
  | some s =>
      rw [Attachment.catchUp, hs]
      intro t ht
      cases ht
      rw [Server.settings_learnAll]
      exact h s hs

theorem Named.of_presides_hear (h : a.Named id) (hp : (a.hear outcome).presides = true) :
    outcome = .elected id := by
  obtain ⟨_, s, hs, hleads⟩ := presides_iff.1 hp
  obtain ⟨t, ht, rfl⟩ := Option.map_eq_some_iff.1 hs
  rw [← h t ht]
  exact Server.leads_hear hleads

theorem presides_of_presides_catchUp (h : (a.catchUp entries).presides = true) :
    a.presides = true := by
  cases hs : a.replica with
  | none =>
      rw [catchUp, hs] at h
      exact h
  | some s =>
      rw [catchUp, hs] at h
      obtain ⟨hon, t, ht, hleads⟩ := presides_iff.1 h
      cases ht
      exact presides_iff.2 ⟨hon, s, hs, Server.leads_of_leads_learnAll hleads⟩

theorem leads_of_presides_catchUp (h : (a.catchUp entries).presides = true) :
    ∃ s, a.replica = some s ∧ s.leads = true :=
  (presides_iff.1 (presides_of_presides_catchUp h)).2

end Attachment

namespace CommitLog

def presides (l : CommitLog Server) (id : ServerId) : Bool :=
  (l.attached.get? id).any (·.presides)

/-- The server presides without leading the log. -/
def Strays (l : CommitLog Server) (id : ServerId) : Prop :=
  l.presides id = true ∧ l.leader ≠ some id

/-- The server does not run, and would preside if it were started. -/
def Revives (l : CommitLog Server) (id : ServerId) : Prop :=
  l.isOnline id = false ∧ (l.start id).2.presides id = true

instance (l : CommitLog Server) (id : ServerId) : Decidable (l.Revives id) :=
  inferInstanceAs (Decidable (_ ∧ _))

/-- Nobody but the leader of the log presides over it. -/
structure SoleLeader (l : CommitLog Server) : Prop where
  leads : ∀ id, l.presides id = true → l.leader = some id
  unique : ∀ id j, l.presides id = true → l.presides j = true → id = j
  leaderless : l.leader = none → ∀ id, l.presides id = false

/-- Every server is attached under its own id. -/
def Named (l : CommitLog Server) : Prop :=
  ∀ id a, l.attached.get? id = some a → a.Named id

/-- The servers have their own ids, and one that runs leads the log, if any does. -/
structure Manned (l : CommitLog Server) : Prop where
  named : l.Named
  led : l.Led

variable {l l' l'' : CommitLog Server}

theorem presides_iff {id : ServerId} :
    l.presides id = true ↔ ∃ a, l.attached.get? id = some a ∧ a.presides = true := by
  rw [presides, Option.any_eq_true]

theorem isOnline_of_presides {id : ServerId} (h : l.presides id = true) :
    l.isOnline id = true := by
  obtain ⟨a, ha, hpresides⟩ := presides_iff.1 h
  exact isOnline_iff.2 ⟨a, ha, (Attachment.presides_iff.1 hpresides).1⟩

theorem soleLeader_iff : l.SoleLeader ↔ ∀ id, ¬ l.Strays id := by
  constructor
  · rintro h id ⟨hpresides, hnot⟩
    exact hnot (h.leads id hpresides)
  · intro h
    have hleads : ∀ id, l.presides id = true → l.leader = some id := fun id hpresides =>
      not_not.1 fun hnot => h id ⟨hpresides, hnot⟩
    refine ⟨hleads, fun id j hid hj => ?_, fun hnone id => Bool.eq_false_iff.2 fun hid => ?_⟩
    · exact Option.some.inj ((hleads id hid).symm.trans (hleads j hj))
    · cases hnone.symm.trans (hleads id hid)

theorem manned_empty (seed : Roster) : (empty seed : CommitLog Server).Manned where
  named id a ha := by
    rw [empty, Keyed.get?_empty] at ha
    cases ha
  led := led_empty seed

theorem not_strays_empty (seed : Roster) (id : ServerId) :
    ¬ (empty seed : CommitLog Server).Strays id :=
  fun hs => Bool.false_ne_true hs.1

/-- What an operation that starts no server does to the servers that preside. -/
structure Orderly (l l' : CommitLog Server) : Prop where
  manned : l.Manned → l'.Manned
  strays : l.Manned → ∀ id, l'.Strays id → l.Strays id

theorem orderly_refl (l : CommitLog Server) : Orderly l l :=
  ⟨fun h => h, fun _ _ h => h⟩

theorem orderly_of_eq (h : l' = l) : Orderly l l' :=
  h ▸ orderly_refl l

theorem Orderly.trans (h : Orderly l l') (h' : Orderly l' l'') : Orderly l l'' where
  manned hm := h'.manned (h.manned hm)
  strays hm id hs := h.strays hm id (h'.strays (h.manned hm) id hs)

/-- Nobody hears of an election, and nobody begins to preside. -/
theorem orderly_of_quiet (hled : l.Led → l'.Led) (hleader : l'.leader = l.leader)
    (hattached : ∀ id a', l'.attached.get? id = some a' → ∃ a, l.attached.get? id = some a ∧
      (a.Named id → a'.Named id) ∧ (a'.presides = true → a.presides = true)) :
    Orderly l l' where
  manned hm := by
    refine ⟨fun id a' ha' => ?_, hled hm.led⟩
    obtain ⟨a, ha, hnamed, _⟩ := hattached id a' ha'
    exact hnamed (hm.named id a ha)
  strays _ id hs := by
    obtain ⟨hpresides, hnot⟩ := hs
    obtain ⟨a', ha', hpresides⟩ := presides_iff.1 hpresides
    obtain ⟨a, ha, _, hbefore⟩ := hattached id a' ha'
    rw [hleader] at hnot
    exact ⟨presides_iff.2 ⟨a, ha, hbefore hpresides⟩, hnot⟩

theorem Named.announce (h : l.Named) (outcome : Outcome) : (l.announce outcome).Named := by
  intro id a ha
  rw [attached_announce] at ha
  obtain ⟨b, hb, rfl⟩ := Option.map_eq_some_iff.1 ha
  split
  · exact (h id b hb).hear
  · exact h id b hb

theorem Named.halted (h : l.Named) (id : ServerId) : (l.halted id).Named := by
  intro j a ha
  rw [attached_halted] at ha
  split at ha
  · obtain ⟨b, hb, rfl⟩ := Option.map_eq_some_iff.1 ha
    exact h j b hb
  · exact h j a ha

/-- Once every server that runs has heard who leads the log, nobody strays. -/
theorem Named.not_strays_announce (h : l.Named) {outcome : Outcome}
    (hleader : l.leader = outcome.leader?) (id : ServerId) :
    ¬ (l.announce outcome).Strays id := by
  rintro ⟨hpresides, hnot⟩
  obtain ⟨a, ha, hpresides⟩ := presides_iff.1 hpresides
  rw [attached_announce] at ha
  obtain ⟨b, hb, rfl⟩ := Option.map_eq_some_iff.1 ha
  split at hpresides
  · rw [(h id b hb).of_presides_hear hpresides] at hleader
    exact hnot hleader
  · rename_i hoff
    exact hoff (Attachment.presides_iff.1 hpresides).1

/-- Every server that runs hears who leads from then on. -/
theorem orderly_of_announce {outcome : Outcome} (hnamed : l.Named → l'.Named)
    (hleader : l'.leader = outcome.leader?) (hled : l.Manned → (l'.announce outcome).Led) :
    Orderly l (l'.announce outcome) where
  manned hm := ⟨(hnamed hm.named).announce outcome, hled hm⟩
  strays hm id hs := absurd hs ((hnamed hm.named).not_strays_announce hleader id)

section Operations

variable (l : CommitLog Server) (id : ServerId)

theorem orderly_unled : Orderly l l.unled :=
  orderly_of_announce (fun h => h) rfl fun _ => led_unled l

theorem orderly_renewed {leader : ServerId} (hon : l.Manned → l.isOnline leader = true) :
    Orderly l (l.renewed leader) :=
  orderly_of_announce (fun h => h) rfl fun hm => led_renewed (hon hm)

theorem orderly_adjust {f : Server → Server} (hsettings : ∀ s, (f s).settings = s.settings)
    (hrole : ∀ s, (f s).role = s.role) : Orderly l (l.adjust id f) := by
  refine orderly_of_quiet (fun h => h.adjust id f) rfl fun j a' ha' => ?_
  rw [attached_adjust] at ha'
  split at ha'
  · obtain ⟨a, ha, rfl⟩ := Option.map_eq_some_iff.1 ha'
    refine ⟨a, ha, fun hnamed s hs => ?_, fun hpresides => ?_⟩
    · obtain ⟨t, ht, rfl⟩ := Option.map_eq_some_iff.1 hs
      rw [hsettings]
      exact hnamed t ht
    · obtain ⟨hon, s, hs, hleads⟩ := Attachment.presides_iff.1 hpresides
      obtain ⟨t, ht, rfl⟩ := Option.map_eq_some_iff.1 hs
      rw [Server.leads, hrole] at hleads
      exact Attachment.presides_iff.2 ⟨hon, t, ht, hleads⟩
  · exact ⟨a', ha', fun h => h, fun h => h⟩

/-- A fresh server has its id and does not preside. -/
theorem orderly_attach {settings : Settings} (hid : settings.id = id) (seed : Roster) :
    Orderly l (l.attach id (.ofSeed settings seed)) where
  manned hm := by
    refine ⟨fun j a ha => ?_, hm.led.attach id _⟩
    rw [attached_attach] at ha
    split at ha
    · rename_i hij
      cases ha
      refine Attachment.Named.catchUp fun s hs => ?_
      cases hs
      exact hid.trans hij
    · exact hm.named j a ha
  strays _ j hs := by
    obtain ⟨hpresides, hnot⟩ := hs
    obtain ⟨a, ha, hpresides⟩ := presides_iff.1 hpresides
    rw [attached_attach] at ha
    split at ha
    · cases ha
      obtain ⟨s, hs, hleads⟩ := Attachment.leads_of_presides_catchUp hpresides
      cases hs
      rw [Server.not_leads_ofSeed] at hleads
      cases hleads
    · exact ⟨presides_iff.2 ⟨a, ha, hpresides⟩, hnot⟩

theorem orderly_stop : Orderly l (l.stop id) := by
  by_cases hlead : l.leader = some id
  · -- The leader itself does not run any more when this is announced, so it keeps its role.
    rw [stop_eq, if_pos hlead]
    exact orderly_of_announce (fun h => h.halted id) rfl fun _ => led_unled _
  · have hled (h : l.Led) : (l.halted id).Led := by
      have hstop := h.stop id
      rwa [stop_eq, if_neg hlead] at hstop
    rw [stop_eq, if_neg hlead]
    refine orderly_of_quiet hled rfl fun j a' ha' => ?_
    rw [attached_halted] at ha'
    split at ha'
    · obtain ⟨a, ha, rfl⟩ := Option.map_eq_some_iff.1 ha'
      exact ⟨a, ha, fun h => h, fun h => absurd (Attachment.presides_iff.1 h).1 Bool.false_ne_true⟩
    · exact ⟨a', ha', fun h => h, fun h => h⟩

theorem orderly_propose (sender : ServerId) (record : Record) :
    Orderly l (l.propose sender record).2 := by
  have hled (h : l.Led) := h.propose sender record
  rcases propose_cases l sender record with ⟨_, heq⟩ | ⟨_, _, heq⟩ | ⟨_, heq⟩
  · rw [heq]
    exact orderly_refl l
  · rw [heq] at hled ⊢
    refine orderly_of_quiet hled rfl fun j a' ha' => ?_
    rw [attached_deliver] at ha'
    obtain ⟨a, ha, rfl⟩ := Option.map_eq_some_iff.1 ha'
    refine ⟨a, ha, ?_⟩
    split
    · exact ⟨fun h => h.catchUp, Attachment.presides_of_presides_catchUp⟩
    · exact ⟨fun h => h, fun h => h⟩
  · rw [heq]
    exact orderly_unled l

theorem orderly_establish (leader : ServerId) : Orderly l (l.establish leader).2 := by
  rcases establish_cases l leader with heq | ⟨hlead, heq⟩ | heq
  · rw [heq]
    exact orderly_refl l
  · rw [heq]
    exact orderly_renewed l fun hm => hm.led leader hlead
  · rw [heq]
    exact orderly_unled l

theorem orderly_resign (leader : ServerId) : Orderly l (l.resign leader) := by
  rcases resign_cases l leader with heq | heq
  · rw [heq]
    exact orderly_refl l
  · rw [heq]
    exact orderly_unled l

theorem orderly_elect : Orderly l l.elect.2 := by
  rcases elect_cases l with ⟨winner, heq, hwin⟩ | heq
  · rw [heq]
    exact orderly_renewed l fun _ => isOnline_of_elected hwin
  · rw [heq]
    exact orderly_unled l

theorem orderly_leaderOrElect : Orderly l l.leaderOrElect.2 := by
  unfold leaderOrElect
  cases l.leader with
  | some leader => exact orderly_refl l
  | none =>
      dsimp only
      split <;> exact orderly_elect l

end Operations

/-- Whoever strays once a server is started strayed before, or is that server come back. -/
theorem strays_start {id j : ServerId} (h : (l.start id).2.Strays j) :
    l.Strays j ∨ j = id ∧ l.Revives id := by
  have hstarted := h
  obtain ⟨hpresides, hnot⟩ := h
  rcases start_cases l id with heq | heq
  · rw [heq] at hstarted
    exact Or.inl hstarted
  · rw [heq] at hpresides hnot
    obtain ⟨a', ha', hpresides⟩ := presides_iff.1 hpresides
    rw [attached_resumed] at ha'
    split at ha'
    · rename_i hji
      obtain ⟨a, ha, rfl⟩ := Option.map_eq_some_iff.1 ha'
      -- A server that ran already learns nothing that makes a leader of it.
      cases hon : a.online with
      | false =>
          have hoff : l.isOnline id = false := by
            rw [isOnline, ← hji, ha, Option.any_some, hon]
          exact Or.inr ⟨hji, hoff, hji ▸ hstarted.1⟩
      | true =>
          obtain ⟨s, hs, hleads⟩ := Attachment.leads_of_presides_catchUp hpresides
          have hbefore : a.presides = true := Attachment.presides_iff.2 ⟨hon, s, hs, hleads⟩
          exact Or.inl ⟨presides_iff.2 ⟨a, ha, hbefore⟩, hnot⟩
    · exact Or.inl ⟨presides_iff.2 ⟨a', ha', hpresides⟩, hnot⟩

/-- A server that comes back as a leader took itself for one when it was stopped. -/
theorem Revives.leads {id : ServerId} (h : l.Revives id) :
    ∃ s, l.replica? id = some s ∧ s.leads = true := by
  obtain ⟨hoff, hpresides⟩ := h
  rcases start_cases l id with heq | heq
  · rw [heq] at hpresides
    rw [isOnline_of_presides hpresides] at hoff
    cases hoff
  · rw [heq] at hpresides
    obtain ⟨a', ha', hpresides⟩ := presides_iff.1 hpresides
    rw [attached_resumed, if_pos rfl] at ha'
    obtain ⟨a, ha, rfl⟩ := Option.map_eq_some_iff.1 ha'
    obtain ⟨s, hs, hleads⟩ := Attachment.leads_of_presides_catchUp hpresides
    exact ⟨s, Option.bind_eq_some_iff.2 ⟨a, ha, hs⟩, hleads⟩

/-- A server that comes back as a leader is not the leader of the log. -/
theorem Led.strays_of_revives {id : ServerId} (h : l.Led) (hr : l.Revives id) :
    (l.start id).2.Strays id := by
  obtain ⟨hoff, hpresides⟩ := hr
  refine ⟨hpresides, fun hlead => ?_⟩
  have hsame : (l.start id).2.leader = l.leader := by
    rcases start_cases l id with heq | heq <;> rw [heq]
    rfl
  rw [hsame] at hlead
  rw [h id hlead] at hoff
  cases hoff

theorem Manned.start (h : l.Manned) (id : ServerId) : (l.start id).2.Manned := by
  refine ⟨fun j a' ha' => ?_, h.led.start id⟩
  rcases start_cases l id with heq | heq
  · rw [heq] at ha'
    exact h.named j a' ha'
  · rw [heq, attached_resumed] at ha'
    split at ha'
    · obtain ⟨a, ha, rfl⟩ := Option.map_eq_some_iff.1 ha'
      exact Attachment.Named.catchUp (h.named j a ha)
    · exact h.named j a' ha'

theorem Manned.reattach (h : l.Manned) (id : ServerId) : (l.reattach id).Manned := by
  refine ⟨fun j a' ha' => ?_, fun j hj => isOnline_reattach l id (h.led j hj)⟩
  rw [attached_reattach] at ha'
  split at ha'
  · obtain ⟨a, ha, rfl⟩ := Option.map_eq_some_iff.1 ha'
    exact Attachment.Named.catchUp (h.named j a ha)
  · exact h.named j a' ha'

end CommitLog

end Quorate
