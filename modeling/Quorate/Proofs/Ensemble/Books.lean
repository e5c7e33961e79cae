import Quorate.Proofs.Call.Deeds
import Quorate.Proofs.Ensemble
import Quorate.Proofs.Sessions

/-!
# The books of an ensemble

An ensemble keeps two books of its sessions: the table of those that are registered, and the
records in its log that open and close them. `Ensemble.books` takes both out of an ensemble,
with the number of the next session. Whatever else happens leaves the books as they are, and
so does every step of a call (`Deeds.books_eq`). To open a session is to enter it in the log
and then in the table (`books_connect`); to close it is to strike it out of the table first,
whether the log can take the record or not (`books_close`).
-/

namespace Quorate

/-- Whether a record opens or closes a session. -/
def Record.concernsSession : Record → Bool
  | .openSession _ _ | .closeSession _ => true
  | .data _ | .reconfigure _ => false

namespace CommitLog

section

variable {ρ : Type}

/-- Some record of the log opens a session. -/
def Opens (l : CommitLog ρ) (id : SessionId) : Prop :=
  ∃ entry ∈ l.entries, ∃ server, entry.record = .openSession id server

/-- Some record of the log closes a session. -/
def Closes (l : CommitLog ρ) (id : SessionId) : Prop :=
  ∃ entry ∈ l.entries, entry.record = .closeSession id

/-- The records that open and close sessions, the first one first. -/
def sessionRecords (l : CommitLog ρ) : List Record :=
  (l.entries.map (·.record)).filter Record.concernsSession

theorem mem_sessionRecords {l : CommitLog ρ} {record : Record} :
    record ∈ l.sessionRecords ↔
      (∃ entry ∈ l.entries, entry.record = record) ∧ record.concernsSession = true := by
  rw [sessionRecords, List.mem_filter, List.mem_map]

theorem opens_iff {l : CommitLog ρ} {id : SessionId} :
    l.Opens id ↔ ∃ server, .openSession id server ∈ l.sessionRecords := by
  simp only [mem_sessionRecords, Record.concernsSession, and_true, Opens]
  constructor
  · rintro ⟨entry, hin, server, heq⟩
    exact ⟨server, entry, hin, heq⟩
  · rintro ⟨server, entry, hin, heq⟩
    exact ⟨entry, hin, server, heq⟩

theorem closes_iff {l : CommitLog ρ} {id : SessionId} :
    l.Closes id ↔ .closeSession id ∈ l.sessionRecords := by
  simp only [mem_sessionRecords, Record.concernsSession, and_true, Closes]

theorem sessionRecords_of_entries {l l' : CommitLog ρ} (h : l'.entries = l.entries) :
    l'.sessionRecords = l.sessionRecords := by
  rw [sessionRecords, sessionRecords, h]

theorem sessionRecords_concat {l l' : CommitLog ρ} {stamp : Stamp} {record : Record}
    {proposer : ServerId} (h : l'.entries = l.entries ++ [⟨stamp, record, proposer⟩]) :
    l'.sessionRecords =
      l.sessionRecords ++ if record.concernsSession then [record] else [] := by
  rw [sessionRecords, h, List.map_append, List.filter_append, sessionRecords]
  cases hrecord : record.concernsSession <;> simp [hrecord]

end

variable (l : CommitLog Server)

theorem entries_leaderOrElect : l.leaderOrElect.2.entries = l.entries := by
  have helect := l.entries_elect
  unfold leaderOrElect
  cases l.leader with
  | some leader => rfl
  | none =>
      dsimp only
      split <;> exact helect

/-- A record is committed, or the log holds what it held. -/
theorem entries_propose (sender : ServerId) (record : Record) :
    (∃ fault, (l.propose sender record).1 = .error fault ∧
      (l.propose sender record).2.entries = l.entries) ∨
    ∃ stamp, (l.propose sender record).1 = .ok stamp ∧
      (l.propose sender record).2.entries = l.entries ++ [⟨stamp, record, sender⟩] := by
  rcases propose_cases l sender record with ⟨_, heq⟩ | ⟨_, _, heq⟩ | ⟨_, heq⟩ <;> rw [heq]
  · exact Or.inl ⟨_, rfl, rfl⟩
  · exact Or.inr ⟨_, rfl, rfl⟩
  · exact Or.inl ⟨_, rfl, rfl⟩

/-- A record that concerns no session leaves those that do. -/
theorem sessionRecords_propose (sender : ServerId) {record : Record}
    (h : record.concernsSession = false) :
    (l.propose sender record).2.sessionRecords = l.sessionRecords := by
  rcases l.entries_propose sender record with ⟨_, _, hentries⟩ | ⟨_, _, hentries⟩
  · exact sessionRecords_of_entries hentries
  · rw [sessionRecords_concat hentries, if_neg (h ▸ Bool.false_ne_true), List.append_nil]

end CommitLog

namespace Sessions

variable {s s' : Sessions} {id : SessionId}

theorem contains_insert {s : Sessions} {session : Session} (x : Session)
    (h : s.get id = .ok session) (j : SessionId) :
    (s.registered.insert id x).contains j = s.registered.contains j := by
  rw [Keyed.contains, Keyed.get?_insert, Keyed.contains]
  split
  · rename_i heq
    rw [← heq, get_eq_ok_iff.1 h]
    rfl
  · rfl

theorem contains_observe {version : Version} (h : s.observe id version = .ok s')
    (j : SessionId) : s'.registered.contains j = s.registered.contains j := by
  obtain ⟨x, hx, rfl⟩ := observe_eq_ok_iff.1 h
  exact contains_insert (x.observe version) hx j

theorem contains_reconnect {server : ServerId} {r : Roster}
    (h : s.reconnect id server r = .ok s') (j : SessionId) :
    s'.registered.contains j = s.registered.contains j := by
  obtain ⟨_, x, hx, rfl⟩ := reconnect_eq_ok_iff.1 h
  exact contains_insert { x with server, mustReconnect := false } hx j

theorem contains_push (s : Sessions) (r : Roster) (j : SessionId) :
    (s.push r).registered.contains j = s.registered.contains j := by
  unfold push
  split
  · rfl
  · rw [Keyed.contains, Keyed.get?_map, Option.isSome_map, Keyed.contains]

end Sessions

/-- The sessions that are registered, what the log says of sessions, and the number of the
next one. -/
structure Books where
  registered : SessionId → Bool
  records : List Record
  serial : UInt64

namespace Books

variable (b : Books)

/-- A session is struck out of the table. -/
def forget (id : SessionId) : Books :=
  { b with registered := fun j => if id = j then false else b.registered j }

def enter (id : SessionId) (server : ServerId) : Books where
  registered := fun j => if id = j then true else b.registered j
  records := b.records ++ [.openSession id server]
  serial := b.serial + 1

end Books

namespace Ensemble

def books (e : Ensemble) : Books :=
  ⟨e.sessions.registered.contains, e.log.sessionRecords, e.serial⟩

variable {e e' : Ensemble}

theorem books_log {log : CommitLog Server} (h : log.sessionRecords = e.log.sessionRecords) :
    { e with log }.books = e.books := by
  rw [books, books, h]

theorem books_sessions {sessions : Sessions}
    (h : ∀ id, sessions.registered.contains id = e.sessions.registered.contains id) :
    { e with sessions }.books = e.books := by
  rw [books, books, funext h]

theorem Stroke.books_eq {k : Scope} (h : Stroke k e e') : e'.books = e.books := by
  cases h with
  | propose sender proposal within =>
      exact books_log (e.log.sessionRecords_propose sender rfl)
  | elect => exact books_log (CommitLog.sessionRecords_of_entries e.log.entries_elect)
  | resign leader =>
      exact books_log (CommitLog.sessionRecords_of_entries (e.log.entries_resign leader))
  | establish leader =>
      exact books_log (CommitLog.sessionRecords_of_entries (e.log.entries_establish leader))

theorem Touch.books_eq {k : Scope} (h : Touch k e e') : e'.books = e.books := by
  cases h with
  | adjust id settings view role => rfl
  | takeTransit =>
      unfold Ensemble.takeTransit
      split <;> rfl
  | push r within => exact books_sessions (e.sessions.contains_push r)
  | observe session version within observes =>
      exact books_sessions (Sessions.contains_observe observes)
  | reconnect session server found moves =>
      exact books_sessions (Sessions.contains_reconnect moves)

theorem Touches.books_eq {k : Scope} (h : Touches k e e') : e'.books = e.books :=
  h.keeps (R := fun e e' => e'.books = e.books) (fun _ => rfl) (fun _ _ _ h h' => h'.trans h)
    fun _ _ => Touch.books_eq

/-- No step of a call changes the books. -/
theorem Deeds.books_eq {k : Scope} (h : Deeds k e e') : e'.books = e.books :=
  h.keeps (R := fun e e' => e'.books = e.books) (fun _ => rfl) (fun _ _ _ h h' => h'.trans h)
    (fun _ _ => Stroke.books_eq) fun _ _ => Touch.books_eq

theorem books_spawn (e : Ensemble) (id : ServerId) : (e.spawn id).books = e.books := by
  unfold spawn
  cases e.server id <;> rfl

theorem books_spawnAll (e : Ensemble) (ids : List ServerId) :
    (e.spawnAll ids).books = e.books := by
  induction ids generalizing e with
  | nil => rfl
  | cons id ids ih => exact (ih (e.spawn id)).trans (e.books_spawn id)

theorem books_stop (e : Ensemble) (id : ServerId) : (e.stop id).2.books = e.books := by
  unfold stop
  cases e.server id with
  | error fault => rfl
  | ok s => exact books_log (CommitLog.sessionRecords_of_entries (e.log.entries_stop id))

/-- A write touches the log alone, which takes the record or stays as it is. -/
theorem write_cases (e : Ensemble) (record : Record) :
    (∃ fault log, e.write record = (.error fault, { e with log }) ∧
      log.entries = e.log.entries) ∨
    ∃ stamp proposer log, e.write record = (.ok stamp, { e with log }) ∧
      log.entries = e.log.entries ++ [⟨stamp, record, proposer⟩] := by
  have hsettled := e.log.entries_leaderOrElect
  unfold write leaderOrElect
  cases h : e.log.leaderOrElect with
  | mk leader log =>
      rw [h] at hsettled
      cases leader with
      | error fault => exact Or.inl ⟨fault, log, rfl, hsettled⟩
      | ok leader =>
          dsimp only at hsettled ⊢
          rw [← hsettled]
          rcases log.entries_propose leader record with ⟨fault, heq, hentries⟩ |
            ⟨stamp, heq, hentries⟩
          · exact Or.inl ⟨fault, _, by rw [heq], hentries⟩
          · exact Or.inr ⟨stamp, leader, _, by rw [heq], hentries⟩

theorem books_write (e : Ensemble) {record : Record} (h : record.concernsSession = false) :
    (e.write record).2.books = e.books := by
  rcases e.write_cases record with ⟨_, log, heq, hentries⟩ | ⟨_, _, log, heq, hentries⟩
  · rw [heq]
    exact books_log (CommitLog.sessionRecords_of_entries hentries)
  · rw [heq]
    refine books_log ?_
    rw [CommitLog.sessionRecords_concat hentries, if_neg (h ▸ Bool.false_ne_true),
      List.append_nil]

/-- A session that cannot be opened costs a number at most. One that is opened is entered in
the log and in the table. -/
theorem books_connect (e : Ensemble) (server : ServerId) (watch : Bool) :
    (∃ fault log serial, e.connect server watch = (.error fault, { e with log, serial }) ∧
      log.entries = e.log.entries ∧ (serial = e.serial ∨ serial = e.serial + 1)) ∨
    ∃ e', e.connect server watch = (.ok (sessionId server e.serial), e') ∧
      e'.books = e.books.enter (sessionId server e.serial) server := by
  have hwritten := write_cases { e with serial := e.serial + 1 }
    (.openSession (sessionId server e.serial) server)
  rcases e.connect_cases server watch with ⟨fault, heq⟩ |
    ⟨target, _, ⟨fault, _, hwrite, heq⟩ | ⟨_, _, hwrite, heq⟩⟩
  · exact Or.inl ⟨fault, e.log, e.serial, heq, rfl, Or.inl rfl⟩
  · rw [hwrite] at hwritten
    rcases hwritten with ⟨_, log, hfailed, hentries⟩ | ⟨_, _, _, hdone, _⟩
    · cases hfailed
      exact Or.inl ⟨fault, log, e.serial + 1, heq, hentries, Or.inr rfl⟩
    · cases hdone
  · rw [hwrite] at hwritten
    rcases hwritten with ⟨_, _, hfailed, _⟩ | ⟨_, _, log, hdone, hentries⟩
    · cases hfailed
    · cases hdone
      refine Or.inr ⟨_, heq, ?_⟩
      have hentered : (e.sessions.register (sessionId server e.serial) server
          ((log.replica? server).getD target).current.version watch).registered.contains =
          (e.books.enter (sessionId server e.serial) server).registered := by
        funext j
        rw [Sessions.register, Keyed.contains, Keyed.get?_insert, Books.enter]
        dsimp only
        split <;> rfl
      rw [books, hentered, CommitLog.sessionRecords_concat hentries]
      rfl

/-- A session that is not registered cannot be closed. One that is registered is struck out
of the table at once, and the log takes the record of that or does not. -/
theorem books_close (e : Ensemble) (session : SessionId) :
    (∃ fault, e.close session = (.error fault, e) ∧
      e.sessions.registered.contains session = false) ∨
    e.sessions.registered.contains session = true ∧
      ((∃ fault e', e.close session = (.error fault, e') ∧ e'.log.entries = e.log.entries ∧
        e'.books = e.books.forget session) ∨
      ∃ e', e.close session = (.ok (), e') ∧ e'.books =
        { e.books.forget session with records := e.books.records ++ [.closeSession session] }) := by
  rcases e.close_cases session with ⟨fault, hclose, heq⟩ |
    ⟨sessions, result, e', hclose, hwrite, heq⟩
  · refine Or.inl ⟨fault, heq, ?_⟩
    rcases bind_eq_error_iff.1 hclose with hget | ⟨_, _, hget⟩
    · rw [Sessions.get] at hget
      rw [Keyed.contains]
      split at hget
      · cases hget
      · rename_i hnone
        rw [hnone]
        rfl
    · cases hget
  · obtain ⟨⟨x, hx⟩, rfl⟩ := Sessions.close_eq_ok_iff.1 hclose
    refine Or.inr ⟨by rw [Keyed.contains, Sessions.get_eq_ok_iff.1 hx]; rfl, ?_⟩
    have hforgotten : (e.sessions.registered.erase session).contains =
        (e.books.forget session).registered := by
      funext j
      rw [Keyed.contains, Keyed.get?_erase, Books.forget]
      dsimp only
      split <;> rfl
    have hwritten := write_cases
      { e with sessions := { e.sessions with registered := e.sessions.registered.erase session } }
      (.closeSession session)
    rw [hwrite] at hwritten
    rcases hwritten with ⟨fault, log, hfailed, hentries⟩ | ⟨_, _, log, hdone, hentries⟩
    · cases hfailed
      refine Or.inl ⟨fault, _, heq, hentries, ?_⟩
      rw [books, hforgotten, CommitLog.sessionRecords_of_entries hentries]
      rfl
    · cases hdone
      refine Or.inr ⟨_, heq, ?_⟩
      rw [books, hforgotten, CommitLog.sessionRecords_concat hentries]
      rfl

end Ensemble

end Quorate
