import Quorate.Proofs.Keyed
import Quorate.Proofs.Stamp.Order
import Quorate.CommitLog

/-!
# What the operations of a log do

Each operation is described once: what it makes of the attachment of a server, and for
those that decide something (`propose_cases`, `establish_cases`, `elect_cases`) everything
that they can do. What remains of that when the attachments are left out is a `Turn`: an
operation leaves epoch, counter, roster and entries alone, or begins the next epoch, or
commits one record. An invariant of those four is proved once, over the turns.
-/

namespace Quorate

variable {ρ : Type}

namespace CommitLog

/-- The stamp that the next record is committed with. -/
def nextStamp (l : CommitLog ρ) : Stamp :=
  .make l.epoch (bump l.counter)

/-- The leader is a server that runs. -/
def Led (l : CommitLog ρ) : Prop :=
  ∀ id, l.leader = some id → l.isOnline id = true

/-- A log with one server stopped, before anyone hears of it. -/
def halted (l : CommitLog ρ) (id : ServerId) : CommitLog ρ :=
  { l with attached := l.attached.modify id fun a => { a with online := false } }

theorem isOnline_iff {l : CommitLog ρ} {id : ServerId} :
    l.isOnline id = true ↔ ∃ a, l.attached.get? id = some a ∧ a.online = true := by
  rw [isOnline]
  cases l.attached.get? id with
  | none => simp
  | some a => simp

theorem mem_online_iff {l : CommitLog ρ} {id : ServerId} :
    id ∈ l.online ↔ l.isOnline id = true := by
  rw [isOnline_iff, online, Keyed.mem_keysWhere]

theorem attached_halted (l : CommitLog ρ) (id j : ServerId) :
    (l.halted id).attached.get? j =
      if j = id then (l.attached.get? j).map fun a => { a with online := false }
      else l.attached.get? j := by
  rw [halted, Keyed.get?_modify]

theorem attached_adjust (l : CommitLog ρ) (id : ServerId) (f : ρ → ρ) (j : ServerId) :
    (l.adjust id f).attached.get? j =
      if j = id then (l.attached.get? j).map fun a => { a with replica := a.replica.map f }
      else l.attached.get? j := by
  rw [adjust, Keyed.get?_modify]

theorem isOnline_adjust (l : CommitLog ρ) (id : ServerId) (f : ρ → ρ) (j : ServerId) :
    (l.adjust id f).isOnline j = l.isOnline j := by
  rw [isOnline, attached_adjust, isOnline]
  split
  · cases l.attached.get? j <;> rfl
  · rfl

/-- What one operation can do to a log, apart from its attachments. -/
inductive Turn (l l' : CommitLog ρ) : Prop
  | still (epoch : l'.epoch = l.epoch) (counter : l'.counter = l.counter)
      (roster : l'.roster = l.roster) (entries : l'.entries = l.entries)
      (leader : l'.leader = l.leader ∨ l'.leader = none)
  | renewed (epoch : l'.epoch = bump l.epoch) (counter : l'.counter = 0)
      (roster : l'.roster = l.roster) (entries : l'.entries = l.entries)
      (leader : ServerId) (leads : l'.leader = some leader)
  | committed (record : Record) (sender : ServerId) (led : l.leader = some sender)
      (epoch : l'.epoch = l.epoch) (counter : l'.counter = l.nextStamp.counter)
      (roster : l'.roster = (record.successor? l.roster l.nextStamp).getD l.roster)
      (entries : l'.entries = l.entries ++ [⟨l.nextStamp, record, sender⟩])
      (leader : l'.leader = l.leader)

theorem turn_refl (l : CommitLog ρ) : Turn l l :=
  .still rfl rfl rfl rfl (Or.inl rfl)

theorem Turn.epoch {l l' : CommitLog ρ} (h : Turn l l') :
    l'.epoch = l.epoch ∨ l'.epoch = bump l.epoch := by
  cases h with
  | still epoch _ _ _ _ => exact Or.inl epoch
  | renewed epoch _ _ _ _ _ => exact Or.inr epoch
  | committed _ _ _ epoch _ _ _ _ => exact Or.inl epoch

/-- A turn that commits nothing leaves the roster in effect. -/
theorem Turn.roster_eq {l l' : CommitLog ρ} (h : Turn l l') (hentries : l'.entries = l.entries) :
    l'.roster = l.roster := by
  cases h with
  | still _ _ roster _ _ => exact roster
  | renewed _ _ roster _ _ _ => exact roster
  | committed _ _ _ _ _ _ entries _ =>
      have hnil := List.self_eq_append_right.1 (hentries.symm.trans entries)
      exact absurd hnil (List.cons_ne_nil _ _)

variable [Replica ρ]

theorem catchUp_online (entries : List Entry) (a : Attachment ρ) :
    (a.catchUp entries).online = a.online := by
  unfold Attachment.catchUp
  split <;> rfl

theorem attached_announce (l : CommitLog ρ) (outcome : Outcome) (id : ServerId) :
    (l.announce outcome).attached.get? id =
      (l.attached.get? id).map fun a => if a.online then a.hear outcome else a := by
  rw [announce, Keyed.get?_map]

theorem isOnline_announce (l : CommitLog ρ) (outcome : Outcome) (id : ServerId) :
    (l.announce outcome).isOnline id = l.isOnline id := by
  rw [isOnline, attached_announce, isOnline]
  cases l.attached.get? id with
  | none => rfl
  | some a => cases h : a.online <;> simp [h, Attachment.hear]

theorem attached_deliver (l : CommitLog ρ) (id : ServerId) :
    l.deliver.attached.get? id =
      (l.attached.get? id).map fun a => if a.online then a.catchUp l.entries else a := by
  rw [deliver, Keyed.get?_map]

theorem isOnline_deliver (l : CommitLog ρ) (id : ServerId) :
    l.deliver.isOnline id = l.isOnline id := by
  rw [isOnline, attached_deliver, isOnline]
  cases l.attached.get? id with
  | none => rfl
  | some a => cases h : a.online <;> simp [h, catchUp_online]

theorem attached_attach (l : CommitLog ρ) (id : ServerId) (r : ρ) (j : ServerId) :
    (l.attach id r).attached.get? j =
      if id = j then
        some (Attachment.catchUp l.entries { replica := some r, next := 0, online := true })
      else l.attached.get? j := by
  rw [attach, Keyed.get?_insert]

theorem isOnline_attach (l : CommitLog ρ) (id : ServerId) (r : ρ) {j : ServerId}
    (h : l.isOnline j = true) : (l.attach id r).isOnline j = true := by
  rw [isOnline, attached_attach]
  split
  · rfl
  · exact h

theorem attached_reattach (l : CommitLog ρ) (id j : ServerId) :
    (l.reattach id).attached.get? j =
      if j = id then
        (l.attached.get? j).map fun a => { a with next := 0, online := true }.catchUp l.entries
      else l.attached.get? j := by
  rw [reattach, Keyed.get?_modify]

theorem isOnline_reattach (l : CommitLog ρ) (id : ServerId) {j : ServerId}
    (h : l.isOnline j = true) : (l.reattach id).isOnline j = true := by
  rw [isOnline, attached_reattach]
  split
  · obtain ⟨a, ha, _⟩ := isOnline_iff.1 h
    simp [ha, catchUp_online]
  · exact h

theorem stop_eq (l : CommitLog ρ) (id : ServerId) :
    l.stop id = if l.leader = some id then (l.halted id).unled else l.halted id := rfl

/-- A log with one server started again. -/
def resumed (l : CommitLog ρ) (id : ServerId) : CommitLog ρ :=
  { l with
    attached := l.attached.modify id fun a => { a with online := true }.catchUp l.entries }

theorem start_cases (l : CommitLog ρ) (id : ServerId) :
    (l.start id).2 = l ∨ (l.start id).2 = l.resumed id := by
  unfold start
  split
  · exact Or.inr rfl
  · exact Or.inl rfl

theorem attached_resumed (l : CommitLog ρ) (id j : ServerId) :
    (l.resumed id).attached.get? j =
      if j = id then
        (l.attached.get? j).map fun a => { a with online := true }.catchUp l.entries
      else l.attached.get? j := by
  rw [resumed, Keyed.get?_modify]

theorem isOnline_resumed (l : CommitLog ρ) (id : ServerId) {j : ServerId}
    (h : l.isOnline j = true) : (l.resumed id).isOnline j = true := by
  rw [isOnline, attached_resumed]
  split
  · obtain ⟨a, ha, _⟩ := isOnline_iff.1 h
    simp [ha, catchUp_online]
  · exact h

theorem propose_of_ne {l : CommitLog ρ} {sender : ServerId} (hlead : l.leader ≠ some sender)
    (record : Record) : l.propose sender record = (.error (.notLeader l.leader), l) := by
  simp [propose, hlead]

theorem propose_of_acknowledged {l : CommitLog ρ} {sender : ServerId} {record : Record}
    (hlead : l.leader = some sender)
    (hack : l.acknowledged (record.successor? l.roster l.nextStamp) = true) :
    l.propose sender record = (.ok l.nextStamp, (l.append l.nextStamp record sender).deliver) := by
  simp only [nextStamp] at hack
  simp [propose, hlead, hack, nextStamp]

theorem propose_of_not_acknowledged {l : CommitLog ρ} {sender : ServerId} {record : Record}
    (hlead : l.leader = some sender)
    (hack : l.acknowledged (record.successor? l.roster l.nextStamp) = false) :
    l.propose sender record =
      (.error (.lostLeadership (.recordUnacked l.nextStamp l.online)), l.unled) := by
  simp only [nextStamp] at hack
  simp [propose, hlead, hack, nextStamp, stepDown]

/-- A proposal is refused, or commits its record and hands it out, or costs the leader
its leadership. -/
theorem propose_cases (l : CommitLog ρ) (sender : ServerId) (record : Record) :
    (l.leader ≠ some sender ∧
        l.propose sender record = (.error (.notLeader l.leader), l)) ∨
      (l.leader = some sender ∧
        l.acknowledged (record.successor? l.roster l.nextStamp) = true ∧
        l.propose sender record =
          (.ok l.nextStamp, (l.append l.nextStamp record sender).deliver)) ∨
      (l.leader = some sender ∧
        l.propose sender record =
          (.error (.lostLeadership (.recordUnacked l.nextStamp l.online)), l.unled)) := by
  by_cases hlead : l.leader = some sender
  · cases hack : l.acknowledged (record.successor? l.roster l.nextStamp) with
    | true => exact Or.inr (Or.inl ⟨hlead, rfl, propose_of_acknowledged hlead hack⟩)
    | false => exact Or.inr (Or.inr ⟨hlead, propose_of_not_acknowledged hlead hack⟩)
  · exact Or.inl ⟨hlead, propose_of_ne hlead record⟩

/-- A log in the next epoch, of which every running server hears who leads it. -/
def renewed (l : CommitLog ρ) (leader : ServerId) : CommitLog ρ :=
  { l with leader := some leader, epoch := bump l.epoch, counter := 0 }.announce
    (.elected leader)

theorem establish_cases (l : CommitLog ρ) (leader : ServerId) :
    (l.establish leader).2 = l ∨
      (l.leader = some leader ∧ (l.establish leader).2 = l.renewed leader) ∨
      (l.establish leader).2 = l.unled := by
  unfold establish
  split
  · exact Or.inl rfl
  · rename_i h
    have hlead : l.leader = some leader := not_not.1 h
    split
    · refine Or.inr (Or.inl ⟨hlead, ?_⟩)
      rw [renewed, ← hlead]
    · exact Or.inr (Or.inr rfl)

theorem resign_cases (l : CommitLog ρ) (leader : ServerId) :
    l.resign leader = l ∨ l.resign leader = l.unled := by
  unfold resign
  split
  · exact Or.inr rfl
  · exact Or.inl rfl

theorem elect_cases (l : CommitLog ρ) :
    (∃ winner, l.elect = (.elected winner, l.renewed winner) ∧
      Quorate.elect l.roster l.online (fun id => some (l.lastStamp id)) = .elected winner) ∨
    l.elect = (.pending, l.unled) := by
  unfold elect
  cases h : Quorate.elect l.roster l.online (fun id => some (l.lastStamp id)) with
  | elected winner => exact Or.inl ⟨winner, rfl, rfl⟩
  | pending => exact Or.inr rfl

theorem turn_unled (l : CommitLog ρ) : Turn l l.unled :=
  .still rfl rfl rfl rfl (Or.inr rfl)

theorem turn_attach (l : CommitLog ρ) (id : ServerId) (r : ρ) : Turn l (l.attach id r) :=
  .still rfl rfl rfl rfl (Or.inl rfl)

theorem turn_reattach (l : CommitLog ρ) (id : ServerId) : Turn l (l.reattach id) :=
  .still rfl rfl rfl rfl (Or.inl rfl)

theorem turn_stop (l : CommitLog ρ) (id : ServerId) : Turn l (l.stop id) := by
  rw [stop_eq]
  split
  · exact .still rfl rfl rfl rfl (Or.inr rfl)
  · exact .still rfl rfl rfl rfl (Or.inl rfl)

theorem turn_start (l : CommitLog ρ) (id : ServerId) : Turn l (l.start id).2 := by
  rcases start_cases l id with heq | heq
  · rw [heq]
    exact turn_refl l
  · rw [heq]
    exact .still rfl rfl rfl rfl (Or.inl rfl)

theorem turn_propose (l : CommitLog ρ) (sender : ServerId) (record : Record) :
    Turn l (l.propose sender record).2 := by
  rcases propose_cases l sender record with ⟨_, heq⟩ | ⟨hlead, _, heq⟩ | ⟨_, heq⟩
  · rw [heq]
    exact turn_refl l
  · rw [heq]
    exact .committed record sender hlead rfl rfl rfl rfl rfl
  · rw [heq]
    exact turn_unled l

theorem turn_establish (l : CommitLog ρ) (leader : ServerId) :
    Turn l (l.establish leader).2 := by
  rcases establish_cases l leader with heq | ⟨_, heq⟩ | heq
  · rw [heq]
    exact turn_refl l
  · rw [heq]
    exact .renewed rfl rfl rfl rfl leader rfl
  · rw [heq]
    exact turn_unled l

theorem turn_resign (l : CommitLog ρ) (leader : ServerId) : Turn l (l.resign leader) := by
  rcases resign_cases l leader with heq | heq
  · rw [heq]
    exact turn_refl l
  · rw [heq]
    exact turn_unled l

theorem turn_elect (l : CommitLog ρ) : Turn l l.elect.2 := by
  rcases elect_cases l with ⟨winner, heq, _⟩ | heq
  · rw [heq]
    exact .renewed rfl rfl rfl rfl winner rfl
  · rw [heq]
    exact turn_unled l

end CommitLog

end Quorate
