import Quorate.Proofs.Member.Text
import Quorate.Proofs.Stamp.Text
import Quorate.Roster.Text

/-!
# Rosters as text

A roster is sent line by line, so a line break within a host splits the line of a member. A
roster is read back from its own text exactly if every member is `Legible`, that is readable
with its hosts on one line (`ofText_text_iff`), and every roster that was read from some text
has legible members only (`legible_of_ofText`).
-/

namespace Quorate

namespace Member

/-- No host of the member has a line break. -/
def OnOneLine (m : Member) : Prop :=
  '\n' ∉ m.quorum.host.toList ∧ '\n' ∉ m.client.host.toList

/-- The member is readable from a line of its own. -/
def Legible (m : Member) : Prop :=
  m.Readable ∧ m.OnOneLine

instance (m : Member) : Decidable m.OnOneLine :=
  inferInstanceAs (Decidable (_ ∧ _))

instance (m : Member) : Decidable m.Legible :=
  inferInstanceAs (Decidable (_ ∧ _))

theorem Within.onOneLine {m : Member} {cs : List Char} (h : m.Within cs) (hcs : '\n' ∉ cs) :
    m.OnOneLine :=
  ⟨fun hn => hcs (h.1 _ hn), fun hn => (h.2 _ hn).elim hcs (by decide)⟩

theorem OnOneLine.not_mem_text {m : Member} (h : m.OnOneLine) : '\n' ∉ m.text.toList :=
  Member.not_mem_text (by decide) h.1 h.2

end Member

namespace Roster

variable {version : Version} {members : List Member}

/-- The line of a readable member adds the member. -/
theorem readLine_text {m : Member} (h : m.Readable) :
    readLine m.text.toList (version, members) = .ok (version, members ++ [m]) := by
  obtain ⟨more, hmore⟩ : ∃ more, m.text.toList = Member.idLead.toList ++ more :=
    ⟨_, by rw [Member.toList_text, List.append_assoc]⟩
  have hlead : (Text.stripLead? Member.idLead.toList m.text.toList).isSome = true := by
    rw [Text.stripLead?_eq_some_iff.2 hmore]
    rfl
  have hbegins : ¬ (m.text.toList = [] ∨ m.text.toList.head? = some '#') := by
    rw [hmore]
    rintro (hnil | hhash)
    · cases hnil
    · exact absurd (Option.some.inj hhash) (by decide)
  simp only [readLine, m.trim_text, hbegins, hlead, if_false, if_true, Member.readEntry_text h,
    bind, Except.bind, pure, Except.pure]

/-- The last line of a text. -/
def versionLine (version : Version) : List Char :=
  versionKey.toList ++ '=' :: version.text.toList

theorem readLine_versionLine (old new : Version) :
    readLine (versionLine new) (old, members) = .ok (new, members) := by
  have htrim : Text.trim (versionLine new) = versionLine new := by
    rw [versionLine, List.append_cons, Stamp.toList_text]
    exact Text.trim_append_numeral (by decide) (by decide) (by decide) _
  have hbegins : ¬ (versionLine new = [] ∨ (versionLine new).head? = some '#') := by
    rintro (hnil | hhash)
    · cases hnil
    · exact absurd (Option.some.inj hhash) (by decide)
  have hlead : (Text.stripLead? Member.idLead.toList (versionLine new)).isSome = false := rfl
  have hsplit : Text.splitFirst? '=' (versionLine new) =
      some (versionKey.toList, new.text.toList) :=
    Text.splitFirst?_eq_some_iff.2 ⟨rfl, by decide⟩
  have hkey : Text.trim versionKey.toList = versionKey.toList := by decide
  simp only [readLine, htrim, hbegins, hlead, hsplit, hkey, Stamp.read_text, if_false, if_true,
    Bool.false_eq_true, bind, Except.bind, pure, Except.pure]

theorem toList_text (r : Roster) :
    r.text.toList = (r.members.flatMap fun m => m.text.toList ++ ['\n']) ++
      versionLine r.version := by
  have hbreak : "\n".toList = ['\n'] := rfl
  have hequals : "=".toList = ['='] := rfl
  have hlines : (String.join (r.members.map fun m => m.text ++ "\n")).toList =
      r.members.flatMap fun m => m.text.toList ++ ['\n'] := by
    simp only [String.toList_join, List.flatMap_map, String.toList_append, hbreak]
  simp only [text, versionLine, String.toList_append, hlines, hequals, List.append_assoc,
    List.singleton_append]

/-- A text of lines on their own and a last line is cut into these lines again. -/
theorem splitOn_lines {members : List Member} (h : ∀ m ∈ members, m.OnOneLine)
    {last : List Char} (hlast : '\n' ∉ last) :
    Text.splitOn '\n' ((members.flatMap fun m => m.text.toList ++ ['\n']) ++ last) =
      (members.map fun m => m.text.toList) ++ [last] := by
  induction members with
  | nil => exact Text.splitOn_of_not_mem hlast
  | cons m members ih =>
      obtain ⟨hm, hrest⟩ := List.forall_mem_cons.1 h
      rw [List.flatMap_cons, List.append_assoc, List.append_assoc, List.singleton_append,
        Text.splitOn_append hm.not_mem_text, ih hrest]
      rfl

/-- The lines of readable members and a version are read as what they say. -/
theorem readLines_text {more : List Member} (h : ∀ m ∈ more, m.Readable) (old new : Version)
    (members : List Member) :
    readLines ((more.map fun m => m.text.toList) ++ [versionLine new]) (old, members) =
      .ok (new, members ++ more) := by
  induction more generalizing members with
  | nil =>
      rw [List.map_nil, List.nil_append, readLines, readLine_versionLine, List.append_nil]
      rfl
  | cons m more ih =>
      obtain ⟨hm, hrest⟩ := List.forall_mem_cons.1 h
      rw [List.map_cons, List.cons_append, readLines, readLine_text hm]
      have hlines := ih hrest (members ++ [m])
      rw [List.append_assoc, List.singleton_append] at hlines
      exact hlines

theorem not_mem_versionLine (version : Version) : '\n' ∉ versionLine version := by
  have hkey : '\n' ∉ versionKey.toList := by decide
  have hdigits := Text.not_mem_numeral (by decide) (by decide : 16 ≤ 16)
    (by decide : '\n' ∉ Text.digitChars) version.word.toNat
  simp [versionLine, Stamp.toList_text, hkey, hdigits]

/-- A roster of legible members is read back from its text. -/
theorem ofText_text {r : Roster} (h : ∀ m ∈ r.members, m.Legible) : ofText r.text = .ok r := by
  have hlines := splitOn_lines (fun m hm => (h m hm).2) (not_mem_versionLine r.version)
  have hread := readLines_text (fun m hm => (h m hm).1) .zero r.version []
  rw [List.nil_append] at hread
  rw [ofText, read, toList_text, hlines, hread]
  exact make_self r

section Read

variable {line : List Char} {sofar result : Version × List Member}

theorem readLine_eq_ok (h : readLine line sofar = .ok result) :
    result.2 = sofar.2 ∨ ∃ m, Member.readEntry (Text.trim line) = .ok m ∧
      result.2 = sofar.2 ++ [m] := by
  unfold readLine at h
  dsimp only at h
  split at h
  · cases h
    exact Or.inl rfl
  split at h
  · obtain ⟨m, hm, hok⟩ := bind_eq_ok_iff.1 h
    cases hok
    exact Or.inr ⟨m, hm, rfl⟩
  split at h
  · cases h
    exact Or.inl rfl
  split at h
  · obtain ⟨_, _, hok⟩ := bind_eq_ok_iff.1 h
    cases hok
    exact Or.inl rfl
  · cases h
    exact Or.inl rfl

theorem legible_of_readLine (hline : '\n' ∉ line) (h : readLine line sofar = .ok result)
    (hsofar : ∀ m ∈ sofar.2, m.Legible) : ∀ m ∈ result.2, m.Legible := by
  rcases readLine_eq_ok h with heq | ⟨m, hm, heq⟩
  · rw [heq]
    exact hsofar
  · obtain ⟨hreadable, hwithin⟩ := Member.readable_of_readEntry hm
    rw [heq]
    intro x hx
    rcases List.mem_append.1 hx with hx | hx
    · exact hsofar x hx
    · rw [List.mem_singleton.1 hx]
      exact ⟨hreadable, hwithin.onOneLine fun hn => hline (Text.mem_of_mem_trim hn)⟩

theorem legible_of_readLines {lines : List (List Char)} (hlines : ∀ line ∈ lines, '\n' ∉ line)
    (h : readLines lines sofar = .ok result) (hsofar : ∀ m ∈ sofar.2, m.Legible) :
    ∀ m ∈ result.2, m.Legible := by
  induction lines generalizing sofar with
  | nil =>
      cases h
      exact hsofar
  | cons line lines ih =>
      obtain ⟨hline, hrest⟩ := List.forall_mem_cons.1 hlines
      obtain ⟨next, hnext, h⟩ := bind_eq_ok_iff.1 h
      exact ih hrest h (legible_of_readLine hline hnext hsofar)

end Read

/-- Whatever text a roster is read from, its members are legible. -/
theorem legible_of_ofText {text : String} {r : Roster} (h : ofText text = .ok r) :
    ∀ m ∈ r.members, m.Legible := by
  obtain ⟨⟨version, members⟩, hlines, hmake⟩ := bind_eq_ok_iff.1 h
  rw [(make_eq_ok_iff.1 hmake).2]
  exact legible_of_readLines
    (fun line hline hn => (Text.mem_of_mem_splitOn hline hn).2 rfl) hlines
    fun m hm => absurd hm List.not_mem_nil

theorem ofText_text_iff {r : Roster} : ofText r.text = .ok r ↔ ∀ m ∈ r.members, m.Legible :=
  ⟨legible_of_ofText, ofText_text⟩

/-- Exactly the rosters of legible members are read back from their own text, and every text
that can be read at all describes one of these. So what is read is written out and read again
without a change, and a text that is refused stays refused. -/
theorem ofText_text_exact :
    (∀ r : Roster, ofText r.text = .ok r ↔ ∀ m ∈ r.members, m.Legible) ∧
    (∀ text r, ofText text = .ok r → ∀ m ∈ r.members, m.Legible) ∧
    ∀ text, ((ofText text).bind fun r => ofText r.text) = ofText text := by
  refine ⟨fun _ => ofText_text_iff, fun _ _ => legible_of_ofText, fun text => ?_⟩
  cases h : ofText text with
  | error fault => rfl
  | ok r => exact ofText_text (legible_of_ofText h)

/-- Every delimiter stands in the host of the client, where none of them does any harm. -/
def delimited : Roster :=
  ⟨.make 1 2, [⟨1, ⟨"h", 1⟩, ⟨"h", 2⟩, ⟨"a:b;c=#,d", 3⟩, .participant⟩], by decide +kernel⟩

/-- There the colon belongs to the port. -/
def misplaced : Roster :=
  ⟨.zero, [⟨1, ⟨"a:b", 1⟩, ⟨"a:b", 2⟩, ⟨"h", 3⟩, .participant⟩], by decide +kernel⟩

theorem ofText_text_exact_delimited :
    ofText "# a comment\r\n server.1 = h:1:2 ; a:b;c=#,d:3 \r\nversion = 0x100000002" =
      .ok delimited ∧
    (∀ m ∈ delimited.members, m.Legible) ∧ ofText delimited.text = .ok delimited ∧
    ofText misplaced.text ≠ .ok misplaced := by
  obtain ⟨hexact, hlegible, _⟩ := ofText_text_exact
  have hread : ofText "# a comment\r\n server.1 = h:1:2 ; a:b;c=#,d:3 \r\nversion = 0x100000002" =
      .ok delimited := by
    decide +kernel
  have hmembers := hlegible _ _ hread
  exact ⟨hread, hmembers, (hexact delimited).2 hmembers,
    fun h => absurd ((hexact misplaced).1 h) (by decide +kernel)⟩

end Roster

end Quorate
