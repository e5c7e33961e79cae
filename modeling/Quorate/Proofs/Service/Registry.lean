import Quorate.Proofs.Ensemble.Books
import Quorate.Proofs.Ensemble.Run
import Quorate.Proofs.Service.Run

/-!
# Sessions that are registered and sessions that are open

A session should be registered exactly as long as the log holds it open. To open one goes the
right way about that: the log takes the record first, and the session is registered after
that. To close one does not. The session is forgotten first, so that if the log cannot take
the record, the session is gone from the table and stays open in the log for good. That is
the only way in which the two come apart (`Service.registered_iff_not_abandoned`).
-/

namespace Quorate

/-- The low bits of the id of a session are its number. -/
theorem toNat_sessionId_mod (server : ServerId) (serial : UInt64) :
    (sessionId server serial).toNat % 2 ^ 56 = serial.toNat % 2 ^ 56 := by
  have hserver : (server <<< 56).toNat % 2 ^ 56 = 0 := by
    rw [UInt64.toNat_shiftLeft, Nat.shiftLeft_eq, show (56 : UInt64).toNat % 64 = 56 from rfl]
    omega
  have hserial : (serial &&& 0x00ffffffffffffff).toNat = serial.toNat % 2 ^ 56 := by
    rw [UInt64.toNat_and]
    exact Nat.and_two_pow_sub_one_eq_mod serial.toNat 56
  rw [sessionId, UInt64.toNat_or, Nat.or_mod_two_pow, hserver, hserial, Nat.zero_or, Nat.mod_mod]

theorem toNat_eq_of_sessionId_eq {server server' : ServerId} {serial serial' : UInt64}
    (h : sessionId server serial = sessionId server' serial') (hlt : serial.toNat < 2 ^ 56)
    (hlt' : serial'.toNat < 2 ^ 56) : serial.toNat = serial'.toNat := by
  have hmod := toNat_sessionId_mod server serial
  rw [h, toNat_sessionId_mod, Nat.mod_eq_of_lt hlt, Nat.mod_eq_of_lt hlt'] at hmod
  exact hmod.symm

namespace Books

variable {b : Books} {n : Nat} {lost : SessionId → Prop} {id : SessionId}

/-- The log holds a session open. -/
def Holds (b : Books) (id : SessionId) : Prop :=
  (∃ server, .openSession id server ∈ b.records) ∧ .closeSession id ∉ b.records

/-- After a number of attempts to open a session the two books agree on all sessions that are
not lost, and whatever the log says is about sessions that were numbered. -/
structure Balanced (n : Nat) (lost : SessionId → Prop) (b : Books) : Prop where
  counted : b.serial.toNat ≤ n + 1
  issued : ∀ id server, .openSession id server ∈ b.records →
    ∃ origin serial, serial.toNat < b.serial.toNat ∧ id = sessionId origin serial
  opened : ∀ id, .closeSession id ∈ b.records → ∃ server, .openSession id server ∈ b.records
  registered_iff : ∀ id, b.registered id = true ↔ b.Holds id ∧ ¬ lost id
  held : ∀ id, lost id → b.Holds id

theorem Balanced.serial_lt (h : b.Balanced n lost) (hn : n + 1 < 2 ^ 56) :
    b.serial.toNat < 2 ^ 56 :=
  h.counted.trans_lt hn

theorem Balanced.toNat_serial_succ (h : b.Balanced n lost) (hn : n + 1 < 2 ^ 56) :
    (b.serial + 1).toNat = b.serial.toNat + 1 := by
  have hlt := h.serial_lt hn
  rw [UInt64.toNat_add, show (1 : UInt64).toNat = 1 from rfl]
  omega

/-- The next id is a new one. -/
theorem Balanced.not_opened (h : b.Balanced n lost) (hn : n + 1 < 2 ^ 56)
    (server origin : ServerId) : .openSession (sessionId server b.serial) origin ∉ b.records := by
  intro hin
  obtain ⟨_, serial, hlt, heq⟩ := h.issued _ _ hin
  have hserial := h.serial_lt hn
  exact hlt.ne (toNat_eq_of_sessionId_eq heq hserial (hlt.trans hserial)).symm

theorem Balanced.skip (h : b.Balanced n lost) (hn : n + 1 < 2 ^ 56) :
    { b with serial := b.serial + 1 }.Balanced (n + 1) lost where
  counted := by
    have hcounted := h.counted
    rw [h.toNat_serial_succ hn]
    omega
  issued id server hin := by
    obtain ⟨origin, serial, hlt, heq⟩ := h.issued id server hin
    exact ⟨origin, serial, h.toNat_serial_succ hn ▸ Nat.lt_succ_of_lt hlt, heq⟩
  opened := h.opened
  registered_iff := h.registered_iff
  held := h.held

theorem Balanced.enter (h : b.Balanced n lost) (hn : n + 1 < 2 ^ 56) (server : ServerId) :
    (b.enter (sessionId server b.serial) server).Balanced (n + 1) lost := by
  have hnew := h.not_opened hn server
  have hopens {id : SessionId} {origin : ServerId} :
      .openSession id origin ∈ (b.enter (sessionId server b.serial) server).records ↔
        .openSession id origin ∈ b.records ∨
          id = sessionId server b.serial ∧ origin = server := by
    simp [Books.enter]
  have hcloses {id : SessionId} :
      .closeSession id ∈ (b.enter (sessionId server b.serial) server).records ↔
        .closeSession id ∈ b.records := by
    simp [Books.enter]
  refine ⟨(h.skip hn).counted, fun id origin hin => ?_, fun id hin => ?_, fun id => ?_,
    fun id hlost => ?_⟩
  · rcases hopens.1 hin with hin | ⟨rfl, rfl⟩
    · exact (h.skip hn).issued id origin hin
    · exact ⟨origin, b.serial, (h.toNat_serial_succ hn).symm ▸ Nat.lt_succ_self _, rfl⟩
  · obtain ⟨origin, horigin⟩ := h.opened id (hcloses.1 hin)
    exact ⟨origin, hopens.2 (Or.inl horigin)⟩
  · rw [Holds, hcloses]
    simp only [hopens]
    by_cases hid : sessionId server b.serial = id
    · subst hid
      refine iff_of_true (if_pos rfl)
        ⟨⟨⟨server, Or.inr ⟨rfl, rfl⟩⟩, fun hin => ?_⟩, fun hlost => ?_⟩
      · obtain ⟨origin, horigin⟩ := h.opened _ hin
        exact hnew origin horigin
      · obtain ⟨⟨origin, horigin⟩, _⟩ := h.held _ hlost
        exact hnew origin horigin
    · simp only [Ne.symm hid, false_and, or_false]
      exact (iff_of_eq (congrArg (· = true) (if_neg hid))).trans (h.registered_iff id)
  · obtain ⟨⟨origin, horigin⟩, hnot⟩ := h.held id hlost
    exact ⟨⟨origin, hopens.2 (Or.inl horigin)⟩, fun hin => hnot (hcloses.1 hin)⟩

/-- A session is closed in both books. -/
theorem Balanced.close (h : b.Balanced n lost) (hid : b.registered id = true) :
    { b.forget id with records := b.records ++ [Record.closeSession id] }.Balanced n lost := by
  obtain ⟨⟨hopened, _⟩, hfound⟩ := (h.registered_iff id).1 hid
  have hholds {j : SessionId} :
      Books.Holds { b.forget id with records := b.records ++ [Record.closeSession id] } j ↔
        b.Holds j ∧ j ≠ id := by
    simp [Holds, and_assoc]
  refine ⟨h.counted, fun j server hin => ?_, fun j hin => ?_, fun j => ?_, fun j hlost => ?_⟩
  · exact h.issued j server (by simpa using hin)
  · have hopens : ∃ server, .openSession j server ∈ b.records := by
      rcases List.mem_append.1 hin with hin | hin
      · exact h.opened j hin
      · cases List.mem_singleton.1 hin
        exact hopened
    exact hopens.imp fun server hserver => List.mem_append_left _ hserver
  · rw [hholds]
    by_cases hj : id = j
    · subst hj
      exact iff_of_false (by simp [forget]) fun hnot => hnot.1.2 rfl
    · have hregistered := h.registered_iff j
      simp only [forget, hj, if_false, hregistered, ne_eq, Ne.symm hj, not_false_eq_true, and_true]
  · exact hholds.2 ⟨h.held j hlost, fun hj => hfound (hj ▸ hlost)⟩

/-- A session is forgotten and stays open in the log. -/
theorem Balanced.lose (h : b.Balanced n lost) (hid : b.registered id = true) :
    (b.forget id).Balanced n fun j => lost j ∨ id = j := by
  refine ⟨h.counted, h.issued, h.opened, fun j => ?_, fun j hlost => ?_⟩
  · by_cases hj : id = j
    · exact iff_of_false (by simp [forget, hj]) fun hnot => hnot.2 (Or.inr hj)
    · have hregistered := h.registered_iff j
      simp only [forget, hj, if_false, hregistered, or_false]
      exact Iff.rfl
  · rcases hlost with hlost | rfl
    · exact h.held j hlost
    · exact ((h.registered_iff id).1 hid).1

theorem Balanced.congr {lost' : SessionId → Prop} (h : b.Balanced n lost)
    (hlost : ∀ id, lost id ↔ lost' id) : b.Balanced n lost' :=
  (funext fun id => propext (hlost id) : lost = lost') ▸ h

end Books

namespace Ensemble

variable {template : Settings} {seed : Roster} {e : Ensemble} {id : SessionId}

/-- A registered session is to be closed, but the log cannot take the record. -/
def Abandons (e : Ensemble) (id : SessionId) : Prop :=
  e.sessions.registered.contains id = true ∧ ∃ fault, (e.close id).1 = .error fault

theorem holds_iff : e.books.Holds id ↔ e.log.Opens id ∧ ¬ e.log.Closes id := by
  rw [Books.Holds, CommitLog.opens_iff, CommitLog.closes_iff]
  rfl

theorem balanced_bootstrap (h : bootstrap template seed = .ok e) :
    e.books.Balanced 0 fun _ => False := by
  have hbooks : e.books = ⟨fun _ => false, [], 1⟩ := by
    unfold bootstrap at h
    split at h
    · cases h
    · cases h
      exact (Stroke.elect (k := .all) _).books_eq.trans (books_spawnAll _ seed.ids)
  rw [hbooks]
  exact {
    counted := le_refl 1
    issued := fun _ _ hin => absurd hin List.not_mem_nil
    opened := fun _ hin => absurd hin List.not_mem_nil
    registered_iff := fun _ => iff_of_false Bool.false_ne_true
      fun hholds => List.not_mem_nil hholds.1.1.choose_spec
    held := fun _ hlost => hlost.elim }

end Ensemble

namespace Service

def Operation.isConnect : Operation → Bool
  | .connect _ _ => true
  | _ => false

/-- No record that opens or closes a session is written by hand. -/
def Operation.SparesSessions : Operation → Prop
  | .write record _ => record.concernsSession = false
  | _ => True

variable {s : Service} {operation : Operation} {n : Nat} {lost : SessionId → Prop}

/-- Only the opening and the closing of a session change the books. -/
theorem books_perform (hspares : operation.SparesSessions)
    (hconnect : operation.isConnect = false) (hclose : ∀ id, operation ≠ .close id) :
    (s.perform operation).ensemble.books = s.ensemble.books := by
  cases operation with
  | spawn id => exact s.ensemble.books_spawn id
  | stop id => exact s.ensemble.books_stop id
  | start id =>
      exact Ensemble.books_log
        (CommitLog.sessionRecords_of_entries (s.ensemble.log.entries_start id))
  | elect => exact (Ensemble.Stroke.elect (k := .all) s.ensemble).books_eq
  | leaderOrElect => exact (s.ensemble.deeds_leaderOrElect .all).books_eq
  | write record plain => exact s.ensemble.books_write hspares
  | connect server watch => cases hconnect
  | close session => exact absurd rfl (hclose session)
  | reconnect session server =>
      unfold perform
      dsimp only
      split
      · rename_i he
        exact (Ensemble.touches_reconnect .all he).books_eq
      · rfl
  | failover session =>
      unfold perform
      dsimp only
      split
      · rename_i he
        exact (Ensemble.touches_failover .all he).books_eq
      · rfl
  | dropInbox session => rfl
  | read session now =>
      unfold perform
      rw [ensemble_undertake]
      exact (Reading.touches_startConnected .all now s.ensemble session).books_eq
  | request session request =>
      unfold perform
      rw [ensemble_undertake]
  | advance place now =>
      unfold perform advance
      dsimp only
      split
      · split
        · rename_i hstep
          exact (Errand.deeds_step s.ensemble.supports_all (Errand.knows_all _) hstep).1.books_eq
        · rfl
      · rfl

theorem balanced_connect (h : s.ensemble.books.Balanced n lost) (hn : n + 1 < 2 ^ 56)
    (server : ServerId) (watch : Bool) :
    (s.perform (.connect server watch)).ensemble.books.Balanced (n + 1) lost := by
  rw [perform]
  rcases s.ensemble.books_connect server watch with
    ⟨fault, log, serial, heq, hentries, hserial⟩ | ⟨e', heq, hbooks⟩
  · have hbooks : { s.ensemble with log, serial }.books =
        { s.ensemble.books with serial := serial } := by
      rw [Ensemble.books, CommitLog.sessionRecords_of_entries hentries]
      rfl
    rw [heq]
    rcases hserial with rfl | rfl
    · exact hbooks ▸ ⟨Nat.le_succ_of_le h.counted, h.issued, h.opened, h.registered_iff, h.held⟩
    · exact hbooks ▸ h.skip hn
  · rw [heq]
    exact hbooks ▸ h.enter hn server

theorem balanced_close (h : s.ensemble.books.Balanced n lost) (id : SessionId) :
    (s.perform (.close id)).ensemble.books.Balanced n
      fun j => lost j ∨ id = j ∧ s.ensemble.Abandons id := by
  rw [perform]
  rcases s.ensemble.books_close id with ⟨fault, heq, hnone⟩ |
    ⟨hregistered, ⟨fault, e', heq, _, hbooks⟩ | ⟨e', heq, hbooks⟩⟩
  · have hnot : ¬ s.ensemble.Abandons id := fun hgone =>
      Bool.false_ne_true (hnone.symm.trans hgone.1)
    rw [heq]
    exact h.congr fun j => (or_iff_left fun hgone => hnot hgone.2).symm
  · have hgone : s.ensemble.Abandons id := ⟨hregistered, fault, by rw [heq]⟩
    rw [heq]
    exact hbooks ▸ (h.lose hregistered).congr fun j => or_congr_right (and_iff_left hgone).symm
  · have hnot : ¬ s.ensemble.Abandons id := by
      rintro ⟨_, fault, hfault⟩
      rw [heq] at hfault
      cases hfault
    rw [heq]
    exact hbooks ▸ (h.close hregistered).congr fun j =>
      (or_iff_left fun hgone : id = j ∧ _ => hnot hgone.2).symm

/-- A session was abandoned in some operation of a run. -/
def Abandoned (e : Ensemble) (operations : List Operation) (id : SessionId) : Prop :=
  ∃ k, operations[k]? = some (.close id) ∧ (run e (operations.take k)).ensemble.Abandons id

variable {template : Settings} {seed : Roster} {e : Ensemble} {operations : List Operation}

theorem abandoned_concat {id : SessionId} : Abandoned e (operations ++ [operation]) id ↔
    Abandoned e operations id ∨
      operation = .close id ∧ (run e operations).ensemble.Abandons id := by
  constructor
  · rintro ⟨k, hk, hgone⟩
    rcases Nat.lt_or_ge k operations.length with hlt | hge
    · rw [List.getElem?_append_left hlt] at hk
      rw [List.take_append_of_le_length hlt.le] at hgone
      exact Or.inl ⟨k, hk, hgone⟩
    · have hlen := (List.getElem?_eq_some_iff.1 hk).1
      rw [List.length_append, List.length_singleton] at hlen
      obtain rfl : k = operations.length := by omega
      rw [List.getElem?_concat_length] at hk
      rw [List.take_left] at hgone
      exact Or.inr ⟨Option.some.inj hk, hgone⟩
  · rintro (⟨k, hk, hgone⟩ | ⟨rfl, hgone⟩)
    · have hlt := (List.getElem?_eq_some_iff.1 hk).1
      refine ⟨k, (List.getElem?_append_left hlt).trans hk, ?_⟩
      rw [List.take_append_of_le_length hlt.le]
      exact hgone
    · refine ⟨operations.length, List.getElem?_concat_length, ?_⟩
      rw [List.take_left]
      exact hgone

/-- The books agree along a run on all sessions that were not abandoned. -/
theorem balanced_run (h : Ensemble.bootstrap template seed = .ok e)
    (hspares : ∀ operation ∈ operations, operation.SparesSessions)
    (hcount : operations.countP Operation.isConnect < 2 ^ 56) :
    (run e operations).ensemble.books.Balanced (operations.countP Operation.isConnect)
      (Abandoned e operations) := by
  induction operations using List.reverseRecOn with
  | nil =>
      refine (Ensemble.balanced_bootstrap h).congr fun id => ?_
      exact iff_of_false not_false fun ⟨_, hk, _⟩ => by cases hk
  | append_singleton operations operation ih =>
      obtain ⟨hbefore, hlast⟩ := List.forall_mem_append.1 hspares
      rw [List.countP_append] at hcount ⊢
      have hbalanced := ih hbefore ((Nat.le_add_right _ _).trans_lt hcount)
      have hkept (hnot : ∀ id, operation ≠ .close id) (id : SessionId) :
          Abandoned e operations id ↔ Abandoned e (operations ++ [operation]) id :=
        (abandoned_concat.trans (or_iff_left fun hgone => hnot id hgone.1)).symm
      rw [run_concat]
      cases hconnect : operation.isConnect with
      | true =>
          rw [List.countP_singleton, if_pos hconnect] at hcount ⊢
          cases operation with
          | connect server watch =>
              exact (balanced_connect hbalanced hcount server watch).congr
                (hkept fun _ heq => by cases heq)
          | _ => cases hconnect
      | false =>
          rw [List.countP_singleton, if_neg (hconnect ▸ Bool.false_ne_true), Nat.add_zero]
          by_cases hclose : ∃ id, operation = .close id
          · obtain ⟨id, rfl⟩ := hclose
            refine (balanced_close hbalanced id).congr fun j => ?_
            rw [abandoned_concat, Operation.close.injEq]
            exact or_congr_right (and_congr_right fun hj => hj ▸ Iff.rfl)
          · rw [not_exists] at hclose
            rw [books_perform (hlast _ (List.mem_singleton_self _)) hconnect hclose]
            exact hbalanced.congr (hkept hclose)

/-- What the log says of sessions it says for good. -/
theorem records_perform (hspares : operation.SparesSessions) :
    s.ensemble.books.records <+: (s.perform operation).ensemble.books.records := by
  by_cases hclose : ∃ id, operation = .close id
  · obtain ⟨id, rfl⟩ := hclose
    rw [perform]
    rcases s.ensemble.books_close id with
      ⟨_, heq, _⟩ | ⟨_, ⟨_, _, heq, _, hbooks⟩ | ⟨_, heq, hbooks⟩⟩
    · rw [heq]
      exact List.prefix_rfl
    · rw [heq]
      exact hbooks ▸ List.prefix_rfl
    · rw [heq]
      exact hbooks ▸ List.prefix_append _ _
  rw [not_exists] at hclose
  cases hconnect : operation.isConnect with
  | false => rw [books_perform hspares hconnect hclose]
  | true =>
      cases operation with
      | connect server watch =>
          rw [perform]
          rcases s.ensemble.books_connect server watch with
            ⟨_, _, _, heq, hentries, _⟩ | ⟨_, heq, hbooks⟩
          · have hsame := CommitLog.sessionRecords_of_entries hentries
            rw [heq]
            exact ⟨[], (List.append_nil _).trans hsame.symm⟩
          · rw [heq]
            exact hbooks ▸ List.prefix_append _ _
      | _ => cases hconnect

theorem records_run (hspares : ∀ operation ∈ operations, operation.SparesSessions) {i j : Nat}
    (hij : i ≤ j) : (run e (operations.take i)).ensemble.books.records <+:
      (run e (operations.take j)).ensemble.books.records := by
  induction j, hij using Nat.le_induction with
  | base => exact List.prefix_rfl
  | succ j _ ih =>
      rw [List.take_add_one]
      cases hoperation : operations[j]? with
      | none => rwa [Option.toList_none, List.append_nil]
      | some operation =>
          rw [Option.toList_some, run_concat]
          exact ih.trans (records_perform (hspares _ (List.mem_of_getElem? hoperation)))

/-- Two attempts to open a session do not lead to the same one. -/
theorem ne_of_connects (h : Ensemble.bootstrap template seed = .ok e)
    (hspares : ∀ operation ∈ operations, operation.SparesSessions)
    (hcount : operations.countP Operation.isConnect < 2 ^ 56) {i j : Nat} (hij : i < j)
    {server server' : ServerId} {watch watch' : Bool} {id id' : SessionId}
    (hi : operations[i]? = some (.connect server watch))
    (hj : operations[j]? = some (.connect server' watch'))
    (hid : ((run e (operations.take i)).ensemble.connect server watch).1 = .ok id)
    (hid' : ((run e (operations.take j)).ensemble.connect server' watch').1 = .ok id') :
    id ≠ id' := by
  have htake {k : Nat} {operation : Operation} (hk : operations[k]? = some operation) :
      operations.take (k + 1) = operations.take k ++ [operation] := by
    rw [List.take_add_one, hk, Option.toList_some]
  have hopened : .openSession id server ∈
      (run e (operations.take (i + 1))).ensemble.books.records := by
    rw [htake hi, run_concat, perform]
    rcases (run e (operations.take i)).ensemble.books_connect server watch with
      ⟨_, _, _, heq, _⟩ | ⟨_, heq, hbooks⟩ <;> rw [heq] at hid ⊢ <;> cases hid
    exact hbooks ▸ List.mem_append_right _ (List.mem_singleton_self _)
  have hcountj : (operations.take (j + 1)).countP Operation.isConnect < 2 ^ 56 :=
    ((List.take_sublist _ _).countP_le).trans_lt hcount
  have hconnect : (Operation.connect server' watch').isConnect = true := rfl
  rw [htake hj, List.countP_append, List.countP_singleton, if_pos hconnect] at hcountj
  have hbalanced := balanced_run h (fun o ho => hspares o (List.mem_of_mem_take ho))
    ((Nat.le_add_right _ 1).trans_lt hcountj)
  have hnew := hbalanced.not_opened hcountj server' server
  rcases (run e (operations.take j)).ensemble.books_connect server' watch' with
    ⟨_, _, _, heq, _⟩ | ⟨_, heq, _⟩ <;> rw [heq] at hid' <;> cases hid'
  rintro rfl
  exact hnew ((records_run hspares hij).subset hopened)

/-- After every run a session is registered exactly if the log holds it open, unless it was
abandoned. A session that cannot be opened leaves table and log as they are; one that cannot
be closed leaves the log, and the table as well if it is not abandoned by that. No two
sessions that are opened have the same id. -/
theorem registered_iff_not_abandoned (h : Ensemble.bootstrap template seed = .ok e)
    (operations : List Operation)
    (hspares : ∀ operation ∈ operations, operation.SparesSessions)
    (hcount : operations.countP Operation.isConnect < 2 ^ 56) :
    (∀ id, ((run e operations).ensemble.sessions.registered.contains id = true ↔
        (run e operations).ensemble.log.Opens id ∧ ¬ (run e operations).ensemble.log.Closes id) ↔
      ¬ Abandoned e operations id) ∧
    (∀ server watch fault after,
      (run e operations).ensemble.connect server watch = (.error fault, after) →
      after.sessions = (run e operations).ensemble.sessions ∧
        after.log.entries = (run e operations).ensemble.log.entries) ∧
    (∀ id fault after, (run e operations).ensemble.close id = (.error fault, after) →
      after.log.entries = (run e operations).ensemble.log.entries ∧
        ((run e operations).ensemble.Abandons id ∨ after = (run e operations).ensemble)) ∧
    ∀ i j server server' watch watch' id id', i < j →
      operations[i]? = some (.connect server watch) →
      operations[j]? = some (.connect server' watch') →
      ((run e (operations.take i)).ensemble.connect server watch).1 = .ok id →
      ((run e (operations.take j)).ensemble.connect server' watch').1 = .ok id' → id ≠ id' := by
  refine ⟨fun id => ?_, fun server watch fault after heq => ?_, fun id fault after heq => ?_,
    fun _ _ _ _ _ _ _ _ hij hi hj hid hid' =>
      ne_of_connects h hspares hcount hij hi hj hid hid'⟩
  · have hbalanced := balanced_run h hspares hcount
    have hregistered := hbalanced.registered_iff id
    rw [Ensemble.holds_iff] at hregistered
    constructor
    · intro hiff hgone
      have hheld := Ensemble.holds_iff.1 (hbalanced.held id hgone)
      exact (hregistered.1 (hiff.2 hheld)).2 hgone
    · intro hnot
      exact hregistered.trans (and_iff_left hnot)
  · rcases (run e operations).ensemble.books_connect server watch with
      ⟨_, _, _, hconnect, hentries, _⟩ | ⟨_, hconnect, _⟩
    · cases hconnect.symm.trans heq
      exact ⟨rfl, hentries⟩
    · cases hconnect.symm.trans heq
  · rcases (run e operations).ensemble.books_close id with ⟨_, hclose, _⟩ |
      ⟨hregistered, ⟨_, _, hclose, hentries, _⟩ | ⟨_, hclose, _⟩⟩
    · cases hclose.symm.trans heq
      exact ⟨rfl, Or.inr rfl⟩
    · cases hclose.symm.trans heq
      exact ⟨hentries, Or.inl ⟨hregistered, fault, by rw [hclose]⟩⟩
    · cases hclose.symm.trans heq

/-- A session is opened on the leader, who is left alone before it is closed. -/
def desertedRun : List Operation :=
  [.connect 3 false, .stop 1, .stop 2, .close (sessionId 3 1)]

theorem abandons_desertedRun :
    (run .trio (desertedRun.take 3)).ensemble.Abandons (sessionId 3 1) := by
  have hfailed : ((run .trio (desertedRun.take 3)).ensemble.close (sessionId 3 1)).1 =
      .error (.lostLeadership (.recordUnacked (.make 1 2) (.ofList [3]))) := by decide +kernel
  exact ⟨by decide +kernel, _, hfailed⟩

/-- The books agree on the session until it is abandoned. -/
theorem registered_iff_not_abandoned_desertedRun :
    Ensemble.bootstrap {} .trio = .ok .trio ∧
    (∀ operation ∈ desertedRun, operation.SparesSessions) ∧
    desertedRun.countP Operation.isConnect < 2 ^ 56 ∧
    ((run .trio (desertedRun.take 3)).ensemble.log.Opens (sessionId 3 1) ∧
      ¬ (run .trio (desertedRun.take 3)).ensemble.log.Closes (sessionId 3 1)) ∧
    ¬ ((run .trio desertedRun).ensemble.sessions.registered.contains (sessionId 3 1) = true ↔
      (run .trio desertedRun).ensemble.log.Opens (sessionId 3 1) ∧
        ¬ (run .trio desertedRun).ensemble.log.Closes (sessionId 3 1)) := by
  have hboot : Ensemble.bootstrap {} .trio = .ok .trio := by decide +kernel
  have hspares : ∀ operation ∈ desertedRun, operation.SparesSessions := by
    simp [desertedRun, Operation.SparesSessions]
  have hcount : desertedRun.countP Operation.isConnect < 2 ^ 56 := by decide
  have hregistered : (run .trio (desertedRun.take 3)).ensemble.sessions.registered.contains
      (sessionId 3 1) = true := by decide +kernel
  have hkept : ¬ Abandoned .trio (desertedRun.take 3) (sessionId 3 1) := by
    rintro ⟨k, hk, _⟩
    match k, hk with
    | 0, hk => cases hk
    | 1, hk => cases hk
    | 2, hk => cases hk
  have hbefore := (registered_iff_not_abandoned hboot (desertedRun.take 3)
    (fun o ho => hspares o (List.mem_of_mem_take ho)) (by decide)).1 (sessionId 3 1)
  have hafter := (registered_iff_not_abandoned hboot desertedRun hspares hcount).1 (sessionId 3 1)
  exact ⟨hboot, hspares, hcount, (hbefore.2 hkept).1 hregistered,
    fun hiff => hafter.1 hiff ⟨3, rfl, abandons_desertedRun⟩⟩

/-- The session is gone, but the log holds it open. -/
theorem not_registered_desertedRun :
    Ensemble.bootstrap {} .trio = .ok .trio ∧
    (∀ operation ∈ desertedRun, operation.SparesSessions) ∧
    desertedRun.countP Operation.isConnect < 2 ^ 56 ∧
    (run .trio desertedRun).ensemble.sessions.registered.contains (sessionId 3 1) = false ∧
    (run .trio desertedRun).ensemble.log.Opens (sessionId 3 1) ∧
    ¬ (run .trio desertedRun).ensemble.log.Closes (sessionId 3 1) := by
  have hentries : (run .trio desertedRun).ensemble.log.entries =
      [⟨.make 1 1, .openSession (sessionId 3 1) 3, 3⟩] := by decide +kernel
  refine ⟨by decide +kernel, ?_, by decide, by decide +kernel, ?_, ?_⟩
  · simp [desertedRun, Operation.SparesSessions]
  · simp [CommitLog.Opens, hentries]
  · simp [CommitLog.Closes, hentries]

end Service

end Quorate
