import Quorate.Member.Reader
import Quorate.Proofs.Fault
import Quorate.Proofs.Text.Numeral

/-!
# Members as text

Hosts are free text, so that a member need not be read back from its line. It is `Readable`
if its hosts leave the separators of the line alone. Every member that was read from an entry
is (`readable_of_readEntry`), and exactly the readable ones are read back from their own text
(`readEntry_text_iff`), also without what may stand in front of the id (`readEntry_line`). What
that does not rule out is a line break or a comma within a host.
-/

namespace Quorate

theorem readPort_numeral (port : UInt16) : readPort (Text.numeral 10 port.toNat) = .ok port := by
  have htrim := Text.trim_append_numeral (by decide) (by decide : 10 ≤ 16) Text.trimLeft_nil
    port.toNat
  rw [List.nil_append] at htrim
  rw [readPort, htrim, Text.readWord16?_numeral]

namespace Address

theorem toList_text (a : Address) :
    a.text.toList = a.host.toList ++ ':' :: Text.numeral 10 a.port.toNat := by
  rw [text, String.toList_append, String.toList_append, Text.toList_decimal, List.append_assoc]
  rfl

/-- An address at the end of a text that begins with no blank is not trimmed. -/
theorem trim_append_text {cs : List Char} {a : Address} (hne : cs ++ a.host.toList ≠ [])
    (hflush : Text.trimLeft (cs ++ a.host.toList) = cs ++ a.host.toList) :
    Text.trim (cs ++ a.text.toList) = cs ++ a.text.toList := by
  rw [toList_text, List.append_cons, ← List.append_assoc, ← List.append_assoc]
  exact Text.trim_append_numeral (by decide) (by decide) (Text.trimLeft_append hne hflush _)
    a.port.toNat

/-- An address is read back if there is a host that does not begin with a blank. -/
theorem read_text {a : Address} (hhost : a.host.toList ≠ [])
    (hflush : Text.trimLeft a.host.toList = a.host.toList) : read a.text.toList = .ok a := by
  have htrim : Text.trim a.text.toList = a.text.toList :=
    @trim_append_text [] a hhost hflush
  have hsplit : Text.splitLast? ':' a.text.toList =
      some (a.host.toList, Text.numeral 10 a.port.toNat) :=
    Text.splitLast?_eq_some_iff.2 ⟨a.toList_text,
      Text.not_mem_numeral (by decide) (by decide) (by decide) _⟩
  simp only [read, htrim, hsplit, Option.getD_some, hhost, if_false, readPort_numeral, bind,
    Except.bind, String.ofList_toList]
  rfl

/-- The host of an address that was read does not begin with a blank and is no longer than
what was read, unless it is the one that stands for all. -/
theorem read_eq_ok {cs : List Char} {a : Address} (h : read cs = .ok a) :
    a.host.toList ≠ [] ∧ Text.trimLeft a.host.toList = a.host.toList ∧
      ∀ c ∈ a.host.toList, c ∈ cs ∨ c ∈ anyHost.toList := by
  unfold read at h
  dsimp only at h
  cases hsplit : Text.splitLast? ':' (Text.trim cs) with
  | none =>
      have hany : anyHost.toList ≠ [] := by decide
      rw [hsplit, Option.getD_none, if_neg hany] at h
      obtain ⟨port, _, hok⟩ := bind_eq_ok_iff.1 h
      cases hok
      rw [String.toList_ofList]
      have hflush : Text.trimLeft anyHost.toList = anyHost.toList := by decide
      exact ⟨hany, hflush, fun c hc => Or.inr hc⟩
  | some pair =>
      obtain ⟨host, port⟩ := pair
      obtain ⟨htrim, _⟩ := Text.splitLast?_eq_some_iff.1 hsplit
      rw [hsplit, Option.getD_some] at h
      split at h
      · cases h
      rename_i hne
      obtain ⟨_, _, hok⟩ := bind_eq_ok_iff.1 h
      cases hok
      rw [String.toList_ofList]
      refine ⟨hne, Text.trimLeft_eq_self_iff.2 fun c hc => ?_, fun c hc => Or.inl ?_⟩
      · obtain ⟨more, rfl⟩ := List.head?_eq_some_iff.1 hc
        exact Text.head_trim (by rw [htrim]; rfl)
      · refine Text.mem_of_mem_trim ?_
        rw [htrim]
        exact List.mem_append_left _ hc

end Address

theorem Standing.read_text (s : Standing) : Standing.read s.text.toList = .ok s := by
  cases s <;> decide +kernel

theorem Standing.not_mem_text {c : Char} (h : c = ':' ∨ c = ';') (s : Standing) :
    c ∉ s.text.toList := by
  rcases h with rfl | rfl <;> cases s <;> decide

theorem toList_serverText (id : ServerId) : (serverText id).toList = Text.numeral 10 id.toNat :=
  Text.toList_decimal id.toNat

/-- The text is an id as it may stand in a list, with or without what may stand in front. -/
def WritesId (id : ServerId) (cs : List Char) : Prop :=
  cs = (serverText id).toList ∨ cs = Member.idLead.toList ++ (serverText id).toList

namespace WritesId

variable {id : ServerId} {cs : List Char} (h : WritesId id cs)

include h

theorem mem {c : Char} (hc : c ∈ cs) : c ∈ Member.idLead.toList ∨ c ∈ Text.digitChars := by
  have hdigit : c ∈ (serverText id).toList → c ∈ Text.digitChars := by
    rw [toList_serverText]
    exact Text.mem_numeral (by decide) (by decide)
  rcases h with rfl | rfl
  · exact Or.inr (hdigit hc)
  · exact (List.mem_append.1 hc).imp_right hdigit

theorem ne_nil : cs ≠ [] := by
  have hne := Text.numeral_ne_nil 10 id.toNat
  rw [← toList_serverText] at hne
  rcases h with rfl | rfl
  · exact hne
  · exact List.append_ne_nil_of_right_ne_nil _ hne

theorem trim_eq : Text.trim cs = cs := by
  rcases h with rfl | rfl
  · rw [toList_serverText]
    exact Text.trim_append_numeral (by decide) (by decide) Text.trimLeft_nil id.toNat
  · rw [toList_serverText]
    exact Text.trim_append_numeral (by decide) (by decide) (by decide) id.toNat

theorem withoutLead_eq :
    Text.withoutLead Member.idLead.toList cs = Text.numeral 10 id.toNat := by
  rcases h with rfl | rfl
  · have hletter : 's' ∉ Text.numeral 10 id.toNat :=
      Text.not_mem_numeral (by decide) (by decide) (by decide) _
    rw [toList_serverText]
    exact Text.withoutLead_of_not_lead fun hlead => hletter (hlead.subset (by decide))
  · rw [toList_serverText]
    exact Text.withoutLead_append

end WritesId

namespace Member

/-- The hosts of a member leave the separators of its line alone. -/
structure Readable (m : Member) : Prop where
  oneHost : m.election.host = m.quorum.host
  named : m.quorum.host.toList ≠ []
  trimmed : Text.trim m.quorum.host.toList = m.quorum.host.toList
  noColon : ':' ∉ m.quorum.host.toList
  noSemicolon : ';' ∉ m.quorum.host.toList
  clientNamed : m.client.host.toList ≠ []
  clientFlush : Text.trimLeft m.client.host.toList = m.client.host.toList

instance (m : Member) : Decidable m.Readable :=
  decidable_of_iff
    (m.election.host = m.quorum.host ∧ m.quorum.host.toList ≠ [] ∧
      Text.trim m.quorum.host.toList = m.quorum.host.toList ∧ ':' ∉ m.quorum.host.toList ∧
      ';' ∉ m.quorum.host.toList ∧ m.client.host.toList ≠ [] ∧
      Text.trimLeft m.client.host.toList = m.client.host.toList)
    ⟨fun ⟨a, b, c, d, e, f, g⟩ => ⟨a, b, c, d, e, f, g⟩,
      fun ⟨a, b, c, d, e, f, g⟩ => ⟨a, b, c, d, e, f, g⟩⟩

/-- What stands in front of the semicolon of a line, without the id. -/
def peerText (m : Member) : List Char :=
  m.quorum.host.toList ++ ':' :: (Text.numeral 10 m.quorum.port.toNat ++
    ':' :: (Text.numeral 10 m.election.port.toNat ++ ':' :: m.standing.text.toList))

theorem toList_text (m : Member) :
    m.text.toList = (idLead.toList ++ Text.numeral 10 m.id.toNat) ++
      '=' :: (m.peerText ++ ';' :: m.client.text.toList) := by
  simp only [text, peerText, serverText, String.toList_append, Text.toList_decimal,
    Address.toList_text, List.append_assoc, List.cons_append]
  rfl

/-- The characters of a line that are not those of a host. -/
def marks : List Char :=
  (idLead ++ "=:;" ++ Standing.participant.text ++ Standing.observer.text).toList ++ Text.digitChars

theorem not_mem_text {m : Member} {c : Char} (hmarks : c ∉ marks)
    (hquorum : c ∉ m.quorum.host.toList) (hclient : c ∉ m.client.host.toList) :
    c ∉ m.text.toList := by
  have hdigits := Text.not_mem_numeral (by decide) (by decide : 10 ≤ 16)
    fun hc => hmarks (List.mem_append_right _ hc)
  have hrest : ∀ d ∈ marks, c ≠ d := fun d hd heq => hmarks (heq ▸ hd)
  have hlead : c ∉ idLead.toList := fun hc => hmarks (by simp [marks, hc])
  have hstanding : c ∉ m.standing.text.toList := by
    cases h : m.standing <;> exact fun hc => hmarks (by simp [marks, hc])
  simp [toList_text, peerText, Address.toList_text, hquorum, hclient, hdigits, hlead, hstanding,
    hrest '=' (by decide), hrest ':' (by decide), hrest ';' (by decide)]

/-- The line of a member has no blank at its ends, whatever form of the id it begins with. -/
theorem trim_line (m : Member) {key : List Char} (hkey : WritesId m.id key) :
    Text.trim (key ++ '=' :: (m.peerText ++ ';' :: m.client.text.toList)) =
      key ++ '=' :: (m.peerText ++ ';' :: m.client.text.toList) := by
  rw [← List.cons_append, List.append_cons, ← List.append_assoc, ← List.append_assoc]
  refine Address.trim_append_text (by simp) ?_
  rw [List.append_assoc, List.append_assoc]
  exact Text.trimLeft_append hkey.ne_nil (Text.trimLeft_of_trim hkey.trim_eq) _

theorem trim_text (m : Member) : Text.trim m.text.toList = m.text.toList := by
  rw [toList_text, ← toList_serverText]
  exact m.trim_line (Or.inr rfl)

theorem splitPeer_peerText (m : Member) (hcolon : ':' ∉ m.quorum.host.toList) :
    splitPeer m.peerText = .ok (m.quorum.host.toList, Text.numeral 10 m.quorum.port.toNat,
      Text.numeral 10 m.election.port.toNat, m.standing) := by
  have hdigits := Text.not_mem_numeral (by decide) (by decide : 10 ≤ 16)
      (by decide : ':' ∉ Text.digitChars)
  have hsplit : Text.splitOn ':' m.peerText = [m.quorum.host.toList,
      Text.numeral 10 m.quorum.port.toNat, Text.numeral 10 m.election.port.toNat,
      m.standing.text.toList] := by
    rw [peerText, Text.splitOn_append hcolon, Text.splitOn_append (hdigits _),
      Text.splitOn_append (hdigits _),
      Text.splitOn_of_not_mem (Standing.not_mem_text (Or.inl rfl) _)]
  simp only [splitPeer, hsplit, Standing.read_text, bind, Except.bind, pure, Except.pure]

theorem readSpec_text {m : Member} (h : m.Readable) :
    readSpec m.id (m.peerText ++ ';' :: m.client.text.toList) = .ok m := by
  have hsemicolon : ';' ∉ m.peerText := by
    have hdigits := Text.not_mem_numeral (by decide) (by decide : 10 ≤ 16)
      (by decide : ';' ∉ Text.digitChars)
    simp [peerText, h.noSemicolon, hdigits, Standing.not_mem_text (Or.inr rfl)]
  have htrim : Text.trim (m.peerText ++ ';' :: m.client.text.toList) =
      m.peerText ++ ';' :: m.client.text.toList := by
    rw [List.append_cons]
    refine Address.trim_append_text (by simp) ?_
    rw [peerText, List.append_assoc, List.append_assoc]
    exact Text.trimLeft_append h.named (Text.trimLeft_of_trim h.trimmed) _
  have hsplit : Text.splitFirst? ';' (m.peerText ++ ';' :: m.client.text.toList) =
      some (m.peerText, m.client.text.toList) :=
    Text.splitFirst?_eq_some_iff.2 ⟨rfl, hsemicolon⟩
  have helection : (⟨m.quorum.host, m.election.port⟩ : Address) = m.election := by
    rw [← h.oneHost]
  simp only [readSpec, htrim, hsplit, splitPeer_peerText m h.noColon, h.trimmed, h.named,
    if_false, readPort_numeral, Address.read_text h.clientNamed h.clientFlush, bind, Except.bind,
    pure, Except.pure, String.ofList_toList, helection]

/-- A member is read from its line, whatever form of the id it begins with. -/
theorem readEntry_line {m : Member} (h : m.Readable) {key : List Char}
    (hkey : WritesId m.id key) :
    readEntry (key ++ '=' :: (m.peerText ++ ';' :: m.client.text.toList)) = .ok m := by
  have hequals : '=' ∉ key := fun hc => (hkey.mem hc).elim (by decide) (by decide)
  have htrim := m.trim_line hkey
  have hsplit : Text.splitFirst? '=' (key ++ '=' :: (m.peerText ++ ';' :: m.client.text.toList)) =
      some (key, m.peerText ++ ';' :: m.client.text.toList) :=
    Text.splitFirst?_eq_some_iff.2 ⟨rfl, hequals⟩
  simp only [readEntry, htrim, hsplit, hkey.trim_eq, hkey.withoutLead_eq,
    Text.readWord64?_numeral]
  exact readSpec_text h

/-- A member is read back from its own text if it is readable. -/
theorem readEntry_text {m : Member} (h : m.Readable) : readEntry m.text.toList = .ok m := by
  rw [toList_text, ← toList_serverText]
  exact readEntry_line h (Or.inr rfl)

theorem mem_splitOn_of_splitPeer {cs host quorum election : List Char} {standing : Standing}
    (h : splitPeer cs = .ok (host, quorum, election, standing)) : host ∈ Text.splitOn ':' cs := by
  unfold splitPeer at h
  split at h
  · rename_i heq
    cases h
    rw [heq]
    exact List.mem_cons_self
  · rename_i heq
    obtain ⟨_, _, hok⟩ := bind_eq_ok_iff.1 h
    cases hok
    rw [heq]
    exact List.mem_cons_self
  · cases h

/-- The hosts of a member are found in what it was read from, but for the one of its client
address that stands for all. -/
def Within (m : Member) (cs : List Char) : Prop :=
  (∀ c ∈ m.quorum.host.toList, c ∈ cs) ∧
    ∀ c ∈ m.client.host.toList, c ∈ cs ∨ c ∈ Address.anyHost.toList

theorem Within.mono {m : Member} {cs ds : List Char} (h : m.Within cs)
    (hsub : ∀ c ∈ cs, c ∈ ds) : m.Within ds :=
  ⟨fun c hc => hsub c (h.1 c hc), fun c hc => (h.2 c hc).imp_left (hsub c)⟩

theorem readable_of_readSpec {id : ServerId} {cs : List Char} {m : Member}
    (h : readSpec id cs = .ok m) : m.Readable ∧ m.Within cs := by
  unfold readSpec at h
  split at h
  · cases h
  rename_i peer client hsplit
  obtain ⟨hcut, hsemicolon⟩ := Text.splitFirst?_eq_some_iff.1 hsplit
  obtain ⟨⟨host, quorum, election, standing⟩, hpeer, h⟩ := bind_eq_ok_iff.1 h
  have hpiece := mem_splitOn_of_splitPeer hpeer
  dsimp only at h
  split at h
  · cases h
  rename_i hne
  obtain ⟨_, _, h⟩ := bind_eq_ok_iff.1 h
  obtain ⟨_, _, h⟩ := bind_eq_ok_iff.1 h
  obtain ⟨address, haddress, h⟩ := bind_eq_ok_iff.1 h
  obtain ⟨hnamed, hflush, hchars⟩ := Address.read_eq_ok haddress
  cases h
  have hhost : ∀ c ∈ Text.trim host, c ∈ peer ∧ c ≠ ':' := fun c hc =>
    Text.mem_of_mem_splitOn hpiece (Text.mem_of_mem_trim hc)
  constructor
  · exact {
      oneHost := rfl
      named := by rwa [String.toList_ofList]
      trimmed := by rw [String.toList_ofList, Text.trim_trim]
      noColon := by
        rw [String.toList_ofList]
        exact fun hc => (hhost ':' hc).2 rfl
      noSemicolon := by
        rw [String.toList_ofList]
        exact fun hc => hsemicolon (hhost ';' hc).1
      clientNamed := hnamed
      clientFlush := hflush }
  · refine ⟨fun c hc => Text.mem_of_mem_trim ?_, fun c hc => (hchars c hc).imp_left fun hc => ?_⟩
    · rw [String.toList_ofList] at hc
      rw [hcut]
      exact List.mem_append_left _ (hhost c hc).1
    · refine Text.mem_of_mem_trim ?_
      rw [hcut]
      exact List.mem_append_right _ (List.mem_cons_of_mem _ hc)

/-- Whatever is read from an entry is readable. -/
theorem readable_of_readEntry {cs : List Char} {m : Member} (h : readEntry cs = .ok m) :
    m.Readable ∧ m.Within cs := by
  unfold readEntry at h
  dsimp only at h
  split at h
  · cases h
  rename_i key spec hsplit
  split at h
  · cases h
  obtain ⟨hreadable, hwithin⟩ := readable_of_readSpec h
  refine ⟨hreadable, hwithin.mono fun c hc => Text.mem_of_mem_trim ?_⟩
  rw [(Text.splitFirst?_eq_some_iff.1 hsplit).1]
  exact List.mem_append_right _ (List.mem_cons_of_mem _ hc)

theorem readEntry_text_iff {m : Member} : readEntry m.text.toList = .ok m ↔ m.Readable :=
  ⟨fun h => (readable_of_readEntry h).1, readEntry_text⟩

end Member

end Quorate
