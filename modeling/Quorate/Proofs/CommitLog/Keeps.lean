import Quorate.Proofs.CommitLog.Tracking

/-!
# What the servers of a log keep

`Keeps g l l'` says that a feature `g` of its servers is the same in two logs, server by
server. Whatever does not depend on what a server learns and hears is kept by every
operation of a log but the attachment of a server; what depends on the records learnt alone,
such as the view, is kept by those that commit nothing and start no server. No
operation takes back what a server has applied (`Retains`).
-/

namespace Quorate

/-- What a server keeps for its calls: its settings, the proposal in flight and the version
followed up last. -/
def Server.marks (s : Server) : Settings × Option Version × Version :=
  (s.settings, s.inFlight, s.followed)

theorem Server.marks_hear (s : Server) (outcome : Outcome) : (s.hear outcome).marks = s.marks :=
  rfl

theorem Server.marks_learn (s : Server) (stamp : Stamp) (record : Record) :
    (s.learn stamp record).marks = s.marks := by
  unfold learn
  split <;> rfl

theorem Server.view_hear (s : Server) (outcome : Outcome) : (s.hear outcome).view = s.view :=
  rfl

namespace CommitLog

variable {β : Type} {g : Server → β} {l l' l'' : CommitLog Server} {id : ServerId}

/-- A feature of the servers is the same in two logs. -/
def Keeps (g : Server → β) (l l' : CommitLog Server) : Prop :=
  ∀ id, (l'.replica? id).map g = (l.replica? id).map g

theorem keeps_refl (g : Server → β) (l : CommitLog Server) : Keeps g l l :=
  fun _ => rfl

theorem Keeps.trans (h : Keeps g l l') (h' : Keeps g l' l'') : Keeps g l l'' :=
  fun id => (h' id).trans (h id)

/-- What is read off a feature that is kept is kept as well. -/
theorem Keeps.comp {γ : Type} (h : Keeps g l l') (f : β → γ) : Keeps (f ∘ g) l l' := by
  intro id
  rw [← Option.map_map, h id, Option.map_map]

theorem Keeps.exists_replica (h : Keeps g l l') {s : Server} (hs : l.replica? id = some s) :
    ∃ t, l'.replica? id = some t ∧ g t = g s :=
  Option.map_eq_some_iff.1 ((h id).trans (by rw [hs]; rfl))

/-- What holds of a feature of all servers holds of it where it is kept. -/
theorem Keeps.all (h : Keeps g l l') {P : ServerId → β → Prop}
    (hP : ∀ id s, l.replica? id = some s → P id (g s)) :
    ∀ id s, l'.replica? id = some s → P id (g s) := by
  intro id s hs
  obtain ⟨t, ht, heq⟩ := Option.map_eq_some_iff.1 ((h id).symm.trans (by rw [hs]; rfl))
  exact heq ▸ hP id t ht

theorem map_replica? (g : Server → β) (l : CommitLog Server) (id : ServerId) :
    (l.replica? id).map g = (l.attached.get? id).bind fun a => a.replica.map g := by
  rw [replica?, Option.map_bind]
  rfl

/-- A feature is kept if every attachment is changed by a function that keeps it. -/
theorem keeps_of_get? (h : ∀ id, ∃ f : Attachment Server → Attachment Server,
      l'.attached.get? id = (l.attached.get? id).map f ∧
        ∀ a, (f a).replica.map g = a.replica.map g) : Keeps g l l' := by
  intro id
  obtain ⟨f, hget, hf⟩ := h id
  rw [map_replica?, map_replica?, hget]
  cases l.attached.get? id with
  | none => rfl
  | some a => exact hf a

theorem replica?_adjust (l : CommitLog Server) (id j : ServerId) (f : Server → Server) :
    (l.adjust id f).replica? j = if j = id then (l.replica? j).map f else l.replica? j := by
  rw [replica?, attached_adjust, replica?]
  split
  · cases l.attached.get? j <;> rfl
  · rfl

theorem replica?_attach (l : CommitLog Server) (id j : ServerId) (s : Server) :
    (l.attach id s).replica? j =
      if id = j then
        some (l.entries.foldl (fun s e => Replica.learn s e.stamp e.record) s)
      else l.replica? j := by
  rw [replica?, attached_attach, replica?]
  split <;> rfl

theorem keeps_adjust (l : CommitLog Server) (id : ServerId) {f : Server → Server}
    (hf : ∀ s, g (f s) = g s) : Keeps g l (l.adjust id f) := by
  intro j
  rw [replica?_adjust]
  split
  · cases l.replica? j with
    | none => rfl
    | some s => exact congrArg some (hf s)
  · rfl

theorem keeps_halted (g : Server → β) (l : CommitLog Server) (id : ServerId) :
    Keeps g l (l.halted id) := by
  refine keeps_of_get? fun j => ?_
  rw [attached_halted]
  split
  · exact ⟨_, rfl, fun _ => rfl⟩
  · exact ⟨_, Option.map_id'.symm, fun _ => rfl⟩

section Hear

variable (hhear : ∀ s outcome, g (Server.hear s outcome) = g s)

include hhear

theorem keeps_announce (l : CommitLog Server) (outcome : Outcome) :
    Keeps g l (l.announce outcome) := by
  refine keeps_of_get? fun j => ⟨_, attached_announce l outcome j, fun a => ?_⟩
  split
  · rw [Attachment.hear, Option.map_map]
    exact Option.map_congr fun s _ => hhear s outcome
  · rfl

theorem keeps_unled (l : CommitLog Server) : Keeps g l l.unled :=
  keeps_announce hhear _ .pending

theorem keeps_renewed (l : CommitLog Server) (leader : ServerId) : Keeps g l (l.renewed leader) :=
  keeps_announce hhear _ (.elected leader)

theorem keeps_stop (l : CommitLog Server) (id : ServerId) : Keeps g l (l.stop id) := by
  rw [stop_eq]
  split
  · exact (keeps_halted g l id).trans (keeps_unled hhear _)
  · exact keeps_halted g l id

theorem keeps_resign (l : CommitLog Server) (leader : ServerId) :
    Keeps g l (l.resign leader) := by
  rcases resign_cases l leader with heq | heq
  · rw [heq]
    exact keeps_refl g l
  · rw [heq]
    exact keeps_unled hhear l

theorem keeps_establish (l : CommitLog Server) (leader : ServerId) :
    Keeps g l (l.establish leader).2 := by
  rcases establish_cases l leader with heq | ⟨_, heq⟩ | heq
  · rw [heq]
    exact keeps_refl g l
  · rw [heq]
    exact keeps_renewed hhear l leader
  · rw [heq]
    exact keeps_unled hhear l

theorem keeps_elect (l : CommitLog Server) : Keeps g l l.elect.2 := by
  rcases elect_cases l with ⟨winner, heq, _⟩ | heq
  · rw [heq]
    exact keeps_renewed hhear l winner
  · rw [heq]
    exact keeps_unled hhear l

end Hear

section Learn

variable (hlearn : ∀ s stamp record, g (Server.learn s stamp record) = g s)

include hlearn

theorem feature_learnAll (entries : List Entry) (s : Server) :
    g (entries.foldl (fun s e => Replica.learn s e.stamp e.record) s) = g s := by
  induction entries generalizing s with
  | nil => rfl
  | cons e entries ih => exact (ih _).trans (hlearn s e.stamp e.record)

theorem map_replica_catchUp (entries : List Entry) (a : Attachment Server) :
    (a.catchUp entries).replica.map g = a.replica.map g := by
  unfold Attachment.catchUp
  cases hs : a.replica with
  | none => rw [hs]
  | some s => exact congrArg some (feature_learnAll hlearn _ s)

theorem keeps_deliver (l : CommitLog Server) : Keeps g l l.deliver := by
  refine keeps_of_get? fun j => ⟨_, attached_deliver l j, fun a => ?_⟩
  split
  · exact map_replica_catchUp hlearn l.entries a
  · rfl

theorem keeps_reattach (l : CommitLog Server) (id : ServerId) : Keeps g l (l.reattach id) := by
  refine keeps_of_get? fun j => ?_
  rw [attached_reattach]
  split
  · exact ⟨_, rfl, fun a => map_replica_catchUp hlearn l.entries _⟩
  · exact ⟨_, Option.map_id'.symm, fun _ => rfl⟩

theorem keeps_start (l : CommitLog Server) (id : ServerId) : Keeps g l (l.start id).2 := by
  rcases start_cases l id with heq | heq
  · rw [heq]
    exact keeps_refl g l
  · rw [heq]
    refine keeps_of_get? fun j => ?_
    rw [attached_resumed]
    split
    · exact ⟨_, rfl, fun a => map_replica_catchUp hlearn l.entries _⟩
    · exact ⟨_, Option.map_id'.symm, fun _ => rfl⟩

theorem keeps_commit (l : CommitLog Server) (stamp : Stamp) (record : Record)
    (sender : ServerId) : Keeps g l (l.append stamp record sender).deliver :=
  keeps_deliver hlearn (l.append stamp record sender)

theorem keeps_propose (hhear : ∀ s outcome, g (Server.hear s outcome) = g s)
    (l : CommitLog Server) (sender : ServerId) (record : Record) :
    Keeps g l (l.propose sender record).2 := by
  rcases propose_cases l sender record with ⟨_, heq⟩ | ⟨_, _, heq⟩ | ⟨_, heq⟩
  · rw [heq]
    exact keeps_refl g l
  · rw [heq]
    exact keeps_commit hlearn l _ record sender
  · rw [heq]
    exact keeps_unled hhear l

end Learn

/-- No server falls back behind what it has applied. -/
def Retains (l l' : CommitLog Server) : Prop :=
  ∀ id s, l.replica? id = some s →
    ∃ t, l'.replica? id = some t ∧ s.view.applied ≤ t.view.applied

/-- A server has applied all entries up to a stamp. -/
def Applied (l : CommitLog Server) (id : ServerId) (stamp : Stamp) : Prop :=
  ∃ s, l.replica? id = some s ∧ stamp ≤ s.view.applied

/-- A server that runs has applied every entry. -/
theorem Tracked.applied {seed : Roster} (h : l.Tracked seed) (hon : l.isOnline id = true)
    {e : Entry} (he : e ∈ l.entries) : l.Applied id e.stamp := by
  obtain ⟨a, ha, honline⟩ := isOnline_iff.1 hon
  obtain ⟨s, hs, _, hnext, hk⟩ := h.follows id a ha
  refine ⟨s, by rw [replica?, ha, Option.bind_some, hs], ?_⟩
  rw [hk, hnext honline, List.take_length]
  exact View.stamp_le_applied_learnAll he

theorem Applied.retains {stamp : Stamp} (h : l.Applied id stamp) (ha : Retains l l') :
    l'.Applied id stamp := by
  obtain ⟨s, hs, hle⟩ := h
  obtain ⟨t, ht, hle'⟩ := ha id s hs
  exact ⟨t, ht, hle.trans hle'⟩

theorem retains_refl (l : CommitLog Server) : Retains l l :=
  fun _ s hs => ⟨s, hs, le_refl _⟩

theorem Retains.trans (h : Retains l l') (h' : Retains l' l'') : Retains l l'' := by
  intro id s hs
  obtain ⟨t, ht, hle⟩ := h id s hs
  obtain ⟨u, hu, hle'⟩ := h' id t ht
  exact ⟨u, hu, hle.trans hle'⟩

theorem Keeps.retains (h : Keeps Server.view l l') : Retains l l' := by
  intro id s hs
  obtain ⟨t, ht, hview⟩ := h.exists_replica hs
  exact ⟨t, ht, le_of_eq (congrArg View.applied hview.symm)⟩

theorem exists_replica_catchUp (entries : List Entry) {a : Attachment Server} {s : Server}
    (hs : a.replica = some s) :
    ∃ t, (a.catchUp entries).replica = some t ∧ s.view.applied ≤ t.view.applied := by
  rw [Attachment.catchUp, hs]
  refine ⟨_, rfl, ?_⟩
  rw [Server.view_learnAll]
  exact View.applied_le_applied_learnAll _ s.view _

/-- Servers retain what they have applied if every attachment is changed by a function that
leaves its server that far at least. -/
theorem retains_of_get? (h : ∀ id, ∃ f : Attachment Server → Attachment Server,
      l'.attached.get? id = (l.attached.get? id).map f ∧ ∀ a s, a.replica = some s →
        ∃ t, (f a).replica = some t ∧ s.view.applied ≤ t.view.applied) : Retains l l' := by
  intro id s hs
  obtain ⟨a, ha, hreplica⟩ := Option.bind_eq_some_iff.1 hs
  obtain ⟨f, hget, hf⟩ := h id
  obtain ⟨t, ht, hle⟩ := hf a s hreplica
  exact ⟨t, by rw [replica?, hget, ha, Option.map_some, Option.bind_some, ht], hle⟩

theorem retains_deliver (l : CommitLog Server) : Retains l l.deliver := by
  refine retains_of_get? fun j => ⟨_, attached_deliver l j, fun a s hs => ?_⟩
  split
  · exact exists_replica_catchUp l.entries hs
  · exact ⟨s, hs, le_refl _⟩

theorem retains_reattach (l : CommitLog Server) (id : ServerId) :
    Retains l (l.reattach id) := by
  refine retains_of_get? fun j => ?_
  rw [attached_reattach]
  split
  · exact ⟨_, rfl, fun _ s hs => exists_replica_catchUp l.entries hs⟩
  · exact ⟨_, Option.map_id'.symm, fun _ s hs => ⟨s, hs, le_refl _⟩⟩

theorem retains_start (l : CommitLog Server) (id : ServerId) : Retains l (l.start id).2 := by
  rcases start_cases l id with heq | heq
  · rw [heq]
    exact retains_refl l
  · rw [heq]
    refine retains_of_get? fun j => ?_
    rw [attached_resumed]
    split
    · exact ⟨_, rfl, fun _ s hs => exists_replica_catchUp l.entries hs⟩
    · exact ⟨_, Option.map_id'.symm, fun _ s hs => ⟨s, hs, le_refl _⟩⟩

/-- A server is attached where there was none. -/
theorem retains_attach (hid : l.replica? id = none) (s : Server) :
    Retains l (l.attach id s) := by
  intro j t ht
  refine ⟨t, ?_, le_refl _⟩
  rw [replica?_attach, if_neg]
  · exact ht
  · rintro rfl
    cases hid.symm.trans ht

theorem retains_propose (l : CommitLog Server) (sender : ServerId) (record : Record) :
    Retains l (l.propose sender record).2 := by
  rcases propose_cases l sender record with ⟨_, heq⟩ | ⟨_, _, heq⟩ | ⟨_, heq⟩
  · rw [heq]
    exact retains_refl l
  · rw [heq]
    exact retains_deliver (l.append _ record sender)
  · rw [heq]
    exact (keeps_unled Server.view_hear l).retains

end CommitLog

end Quorate
