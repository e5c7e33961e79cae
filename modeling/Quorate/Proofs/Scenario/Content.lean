import Quorate.Proofs.Ensemble.Success
import Quorate.Proofs.Request.RoundTrip
import Quorate.Proofs.Roster.Text
import Quorate.Scenario.Command

/-!
# What clients are told

A client sends the texts of a request and is answered with the text of the roster that was
committed, which is what every watching session is sent as well (`Tells`). The lists of a
request have commas between their entries while a roster has a line for each member, and a
host may be any text without the delimiters of an entry. So what a client is told reads back
as the roster that was committed exactly if no host of it has a line break
(`readsBack_of_handled`).
-/

namespace Quorate

theorem Change.mem_of_compute {current : Roster} {change : MemberChange} {c : Change}
    (h : Change.compute current change = .ok c) :
    ∀ m ∈ c.members, m ∈ current.members ∨ m ∈ change.named := by
  rw [(compute_eq_ok_iff.1 h).2, replacement]
  intro m hm
  cases change with
  | replacement members => exact Or.inr hm
  | incremental joining leaving => exact (List.mem_append.1 hm).imp_left List.mem_of_mem_filter

/-- The members that come in over the wire are readable. -/
theorem WireRequest.readable_of_read {wire : WireRequest} {request : Request}
    (h : wire.read = .ok request) : ∀ m ∈ request.change.named, m.Readable :=
  fun m hm => (listable_of_read h m hm).1

theorem Response.isOk_ofFault (f : Fault) : (Response.ofFault f).isOk = false := by
  rw [isOk, code_ofFault]
  cases f <;> rfl

namespace Scene

/-- What a session is answered, given what its request came to. -/
def respond (result : Except Fault Roster) : Reply :=
  .response (.ofResult (result.map (·.text)))

/-- A request of a session in the form of the wire, run as far as it gets. -/
def handle (now : Nat) (s : Scene) (session : SessionId) (wire : WireRequest) :
    Progress Call Reply × Scene :=
  Progress.burst (resume now) Schedule.burstLimit (s.request session wire)

variable {s s' : Scene} {now : Nat} {session : SessionId} {wire : WireRequest}
  {response : Response}

/-- That is what a schedule does with the request when it is polled. -/
theorem burst_request (now : Nat) (s : Scene) (session : SessionId) (wire : WireRequest) :
    Item.burst now Schedule.burstLimit (s.request session wire).2
        (.ofProgress (s.request session wire).1) =
      (.ofProgress (s.handle now session wire).1, (s.handle now session wire).2) :=
  Item.burst_ofProgress now Schedule.burstLimit (s.request session wire)

theorem handle_of_unreadable {fault : Fault} (h : wire.read = .error fault) :
    s.handle now session wire = (.done (.response (.ofFault fault)), s) := by
  rw [handle, Scene.request, h]
  exact Progress.burst_done _ _ _ _

/-- Over the wire a request does what it does to the ensemble. -/
theorem handle_of_read {request : Request} (h : wire.read = .ok request) :
    s.handle now session wire =
      ((s.ensemble.request now session request).1.bimap .routed respond,
        s.withEnsemble (s.ensemble.request now session request).2) := by
  rw [handle, Scene.request, h, Ensemble.request]
  simp only [Except.bind]
  cases Routed.start s.ensemble session request with
  | error fault => exact Progress.burst_done _ _ _ _
  | ok call =>
      refine Progress.burst_bimap (f := Call.routed) (g := respond) (i := s.withEnsemble) ?_ _
        (.going call, s.ensemble)
      intro c e
      rfl

/-- A response of success has the text of the roster that the request was granted with. -/
theorem exists_granted (h : s.handle now session wire = (.done (.response response), s'))
    (hok : response.isOk = true) :
    ∃ request next, wire.read = .ok request ∧ response.content = next.text ∧
      s.ensemble.request now session request = (.done (.ok next), s'.ensemble) := by
  cases hread : wire.read with
  | error fault =>
      rw [handle_of_unreadable hread] at h
      cases h
      exact Bool.noConfusion ((Response.isOk_ofFault fault).symm.trans hok)
  | ok request =>
      rw [handle_of_read hread] at h
      rcases hrequest : s.ensemble.request now session request with ⟨progress, e⟩
      rw [hrequest] at h
      match progress, h with
      | .done (.ok next), h =>
          cases h
          exact ⟨request, next, rfl, rfl, hrequest⟩
      | .done (.error fault), h =>
          cases h
          exact Bool.noConfusion ((Response.isOk_ofFault fault).symm.trans hok)
      | .going call, h => cases h

/-- What a granted request has told: `next` was committed and is in effect, the content of
the response is its text, and so is the payload of what was sent to any session for it. Its
members are those of the roster before, or could be read. -/
structure Tells (e e' : Ensemble) (content : String) (next : Roster) : Prop where
  committed : ∃ entry, e'.log.entries = e.log.entries ++ [entry] ∧
    entry.record.successor? e.log.roster entry.stamp = some next
  roster : e'.log.roster = next
  told : content = next.text
  sent : ∀ id inbox, e'.sessions.inboxes.get? id = some inbox →
    ∃ before, e.sessions.inboxes.get? id = some before ∧
      (inbox = before ∨ inbox = before ++ [⟨next.version, content⟩])
  members : ∀ m ∈ next.members, m ∈ e.log.roster.members ∨ m.Readable

theorem tells_of_ends {e e' : Ensemble} {request : Request} {next : Roster}
    (h : Routed.Ends e session request (.ok next) e')
    (hnamed : ∀ m ∈ request.change.named, m.Readable) : Tells e e' next.text next := by
  obtain ⟨hmoved, _⟩ := e.unmoved_leaderOrElect
  have hsame : e.leaderOrElect.2.sessions = e.sessions := rfl
  cases h with
  | committed _ led _ ends observed =>
      rw [led] at hmoved hsame
      obtain ⟨change, _, hexamine, hmembers, hnext, hentries, hroster, hsessions⟩ := ends.commits
      obtain ⟨_, _, rfl⟩ := Sessions.observe_eq_ok_iff.1 observed
      rw [hmoved.roster] at hexamine hnext hentries
      rw [hmoved.entries] at hentries
      rw [hsame] at hsessions
      constructor
      · exact ⟨_, hentries, hnext⟩
      · exact hroster
      · rfl
      · intro id inbox hinbox
        dsimp only at hinbox
        rcases hsessions with heq | heq
        · rw [heq] at hinbox
          exact ⟨inbox, hinbox, Or.inl rfl⟩
        · rw [heq] at hinbox
          exact Sessions.inbox_push hinbox
      · rw [hmembers]
        intro m hm
        exact (Change.mem_of_compute (examine_eq_ok hexamine).2.1 m hm).imp_right (hnamed m)

/-- What a client is told of a roster reads back as that roster exactly if every member of it
is legible, for which it has to be on one line, where the members before were legible. -/
theorem readsBack_of_handled {template : Settings} {seed : Roster}
    (h : Ensemble.Reachable template seed (fun _ => True) s.ensemble)
    (hhandled : s.handle now session wire = (.done (.response response), s'))
    (hok : response.isOk = true) :
    ∃ next, Tells s.ensemble s'.ensemble response.content next ∧
      (Roster.ofText response.content = .ok next ↔ ∀ m ∈ next.members, m.Legible) ∧
      ((∀ m ∈ s.ensemble.log.roster.members, m.Legible) →
        (Roster.ofText response.content = .ok next ↔ ∀ m ∈ next.members, m.OnOneLine)) := by
  obtain ⟨request, next, hread, hcontent, hgranted⟩ := exists_granted hhandled hok
  have hends := Ensemble.ends_of_granted h.calm h.inRange hgranted
  have htells := tells_of_ends hends (WireRequest.readable_of_read hread)
  rw [← hcontent] at htells
  have hiff : Roster.ofText response.content = .ok next ↔ ∀ m ∈ next.members, m.Legible := by
    rw [hcontent]
    exact Roster.ofText_text_iff
  refine ⟨next, htells, hiff, fun hbefore => hiff.trans ?_⟩
  refine forall₂_congr fun m hm => ⟨And.right, fun hline => ⟨?_, hline⟩⟩
  exact (htells.members m hm).elim (fun hm => (hbefore m hm).1) id

/-- A session on one of three servers. -/
def attended : Scene :=
  ⟨Ensemble.attended, [Ensemble.firstSession]⟩

/-- What the session is answered where its request is granted. -/
theorem handle_attended {request : Request} {next : Roster} (hread : wire.read = .ok request)
    (hgranted : (Ensemble.attended.request 0 Ensemble.firstSession request).1 =
      .done (.ok next)) :
    attended.handle 0 Ensemble.firstSession wire =
      (.done (.response (.ok next.text)),
        attended.withEnsemble
          (Ensemble.attended.request 0 Ensemble.firstSession request).2) := by
  rw [handle_of_read hread, show attended.ensemble = Ensemble.attended from rfl, hgranted]
  rfl

/-- The session asks for an observer, and reads back what it is answered. -/
theorem readsBack_of_handled_attended : ∃ content s',
    attended.handle 0 Ensemble.firstSession
        ⟨some "server.4=h:40:41:observer;h:42", none, none, "-1"⟩ =
      (.done (.response (.ok content)), s') ∧
    Roster.ofText content = .ok Ensemble.trioObserved := by
  have hread : WireRequest.read ⟨some "server.4=h:40:41:observer;h:42", none, none, "-1"⟩ =
      .ok Ensemble.joinObserver := by decide +kernel
  have hgranted : (Ensemble.attended.request 0 Ensemble.firstSession Ensemble.joinObserver).1 =
      .done (.ok Ensemble.trioObserved) := by decide +kernel
  have hroster : (Ensemble.attended.request 0 Ensemble.firstSession
      Ensemble.joinObserver).2.log.roster = Ensemble.trioObserved := by decide +kernel
  have hhandled := handle_attended hread hgranted
  obtain ⟨next, htells, hiff, _⟩ :=
    readsBack_of_handled Ensemble.reachable_attended hhandled rfl
  cases hroster.symm.trans htells.roster
  exact ⟨_, _, hhandled, hiff.2 (by decide)⟩

/-- An observer whose host is on two lines. -/
def broken : Member :=
  ⟨4, ⟨"a\nb", 1⟩, ⟨"a\nb", 2⟩, ⟨"h4", 3⟩, .observer⟩

def trioBroken : Roster :=
  ⟨.make 1 2, [.onPorts 1 10, .onPorts 2 20, .onPorts 3 30, broken], by decide +kernel⟩

/-- The session asks for such an observer. It is granted, and committed, but neither the
answer nor the notification can be read. -/
theorem not_readsBack_attended : ∃ s',
    attended.handle 0 Ensemble.firstSession
        ⟨some "server.4=a\nb:1:2:observer;h4:3", none, none, "-1"⟩ =
      (.done (.response (.ok trioBroken.text)), s') ∧
    s'.ensemble.log.roster = trioBroken ∧
    s'.ensemble.sessions.inboxes.get? Ensemble.firstSession =
      some [⟨.make 1 2, trioBroken.text⟩] ∧
    Roster.ofText trioBroken.text = .error (.badArguments (.clientMissing 4 "a")) := by
  have hread : WireRequest.read ⟨some "server.4=a\nb:1:2:observer;h4:3", none, none, "-1"⟩ =
      .ok ⟨.incremental [broken] [], none⟩ := by decide +kernel
  have hgranted : (Ensemble.attended.request 0 Ensemble.firstSession
      ⟨.incremental [broken] [], none⟩).1 = .done (.ok trioBroken) := by decide +kernel
  have hunread : Roster.ofText trioBroken.text = .error (.badArguments (.clientMissing 4 "a")) := by
    rw [Roster.ofText, Roster.toList_text]
    decide +kernel
  exact ⟨_, handle_attended hread hgranted, by decide +kernel, by decide +kernel, hunread⟩

end Scene

end Quorate
