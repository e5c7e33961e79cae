import Quorate.Proofs.Request.Wire
import Quorate.Proofs.Stamp.Spelling

/-!
# Requests that are read back

A client writes the members and the ids of a request between commas. It may leave out what can
stand in front of an id, and put blanks and blank entries where it likes: a `Listing` says what
is a list of given items, and `WireRequest.Writes` which texts write out a request. If the request
names a server, it is read back from all of them exactly if its members are `Listable`, that is
readable with no comma in their hosts (`read_iff_of_writes`).
-/

namespace Quorate

/-- The members that a change names, with all that they are to be. -/
def MemberChange.named : MemberChange → List Member
  | .incremental joining _ => joining
  | .replacement members => members

/-- The pieces write out the items in their order, with blanks around an item if one likes. Blank
pieces may stand anywhere. -/
inductive Listing {α : Type} (writes : α → List Char → Prop) :
    List α → List (List Char) → Prop
  | nil : Listing writes [] []
  | blank {items : List α} {pieces : List (List Char)} {piece : List Char}
      (hpiece : ∀ c ∈ piece, Text.isBlank c = true) (hrest : Listing writes items pieces) :
      Listing writes items (piece :: pieces)
  | item {items : List α} {pieces : List (List Char)} {x : α} {before text after : List Char}
      (hbefore : ∀ c ∈ before, Text.isBlank c = true) (htext : writes x text)
      (hafter : ∀ c ∈ after, Text.isBlank c = true) (hrest : Listing writes items pieces) :
      Listing writes (x :: items) ((before ++ text ++ after) :: pieces)

/-- The text of an item can be told from what is around it, and is read back. -/
structure ReadsBack {α : Type} (read : List Char → Except Fault α) (x : α) (text : List Char) :
    Prop where
  trimmed : Text.trim text = text
  ne_nil : text ≠ []
  noComma : ',' ∉ text
  read_eq : read text = .ok x

section Listing

variable {α : Type} {writes : α → List Char → Prop} {read : List Char → Except Fault α}
  {items : List α} {pieces : List (List Char)}

theorem Member.pieces_join (h : ∀ piece ∈ pieces, ',' ∉ piece) :
    Member.pieces (Text.join ',' pieces) = (pieces.map Text.trim).filter (· ≠ []) := by
  cases pieces with
  | nil => rfl
  | cons piece pieces => rw [Member.pieces, Text.splitOn_join (List.cons_ne_nil _ _) h]

theorem comma_not_mem_of_isBlank {piece : List Char} (h : ∀ c ∈ piece, Text.isBlank c = true) :
    ',' ∉ piece :=
  fun hc => absurd (h ',' hc) (by decide)

namespace Listing

theorem not_mem_piece (h : Listing writes items pieces)
    (hback : ∀ x ∈ items, ∀ text, writes x text → ReadsBack read x text) :
    ∀ piece ∈ pieces, ',' ∉ piece := by
  induction h with
  | nil => exact fun _ hpiece => absurd hpiece List.not_mem_nil
  | blank hblank _ ih => exact List.forall_mem_cons.2 ⟨comma_not_mem_of_isBlank hblank, ih hback⟩
  | item hbefore htext hafter _ ih =>
      obtain ⟨hfirst, hrest⟩ := List.forall_mem_cons.1 hback
      refine List.forall_mem_cons.2 ⟨?_, ih hrest⟩
      simp only [List.mem_append, not_or]
      exact ⟨⟨comma_not_mem_of_isBlank hbefore, (hfirst _ htext).noComma⟩, comma_not_mem_of_isBlank hafter⟩

/-- Trimming brings back the text of an item, and of a blank piece nothing is left. -/
theorem mapM_trimmed (h : Listing writes items pieces)
    (hback : ∀ x ∈ items, ∀ text, writes x text → ReadsBack read x text) :
    ((pieces.map Text.trim).filter (· ≠ [])).mapM read = .ok items := by
  induction h with
  | nil => rfl
  | blank hblank _ ih =>
      rw [List.map_cons, Text.trim_eq_nil_iff.2 hblank]
      exact ih hback
  | item hbefore htext hafter _ ih =>
      obtain ⟨hfirst, hrest⟩ := List.forall_mem_cons.1 hback
      obtain ⟨htrim, hne, _, hread⟩ := hfirst _ htext
      rw [List.map_cons, Text.trim_blanks hbefore hafter, htrim,
        List.filter_cons_of_pos (by exact decide_eq_true hne), List.mapM_cons, hread]
      exact bind_eq_ok_iff.2 ⟨_, rfl, bind_eq_ok_iff.2 ⟨_, ih hrest, rfl⟩⟩

/-- A list of items that read back is read as these items. -/
theorem mapM_pieces (h : Listing writes items pieces)
    (hback : ∀ x ∈ items, ∀ text, writes x text → ReadsBack read x text) :
    (Member.pieces (Text.join ',' pieces)).mapM read = .ok items := by
  rw [Member.pieces_join (h.not_mem_piece hback)]
  exact h.mapM_trimmed hback

theorem plain {text : α → List Char} (htext : ∀ x, writes x (text x)) (items : List α) :
    Listing writes items (items.map text) := by
  induction items with
  | nil => exact .nil
  | cons x items ih =>
      have hnone : ∀ c ∈ ([] : List Char), Text.isBlank c = true := List.forall_mem_nil _
      have hitem := Listing.item hnone (htext x) hnone ih
      rwa [List.nil_append, List.append_nil] at hitem

end Listing

end Listing

namespace Member

/-- The text is the line of a member, with what may stand in front of its id or without. -/
def Writes (m : Member) (cs : List Char) : Prop :=
  cs = m.text.toList ∨ idLead.toList ++ cs = m.text.toList

/-- The hosts of a member leave alone the separators of its line and of a list of lines. -/
def Listable (m : Member) : Prop :=
  m.Readable ∧ ',' ∉ m.quorum.host.toList ∧ ',' ∉ m.client.host.toList

instance (m : Member) : Decidable m.Listable :=
  inferInstanceAs (Decidable (_ ∧ _ ∧ _))

variable {m : Member} {cs : List Char}

theorem Writes.exists_id (h : m.Writes cs) :
    ∃ key, WritesId m.id key ∧ cs = key ++ '=' :: (m.peerText ++ ';' :: m.client.text.toList) := by
  rw [Writes, toList_text, ← toList_serverText] at h
  rcases h with rfl | h
  · exact ⟨_, Or.inr rfl, rfl⟩
  · rw [List.append_assoc] at h
    exact ⟨_, Or.inl rfl, List.append_cancel_left h⟩

theorem Writes.mem_text (h : m.Writes cs) {c : Char} (hc : c ∈ cs) : c ∈ m.text.toList := by
  rcases h with heq | heq
  · exact heq ▸ hc
  · exact heq ▸ List.mem_append_right _ hc

theorem Listable.readsBack (h : m.Listable) (hcs : m.Writes cs) : ReadsBack readEntry m cs := by
  obtain ⟨hreadable, hquorum, hclient⟩ := h
  have hcomma : ',' ∉ cs := fun hc =>
    not_mem_text (by decide) hquorum hclient (hcs.mem_text hc)
  obtain ⟨key, hkey, rfl⟩ := hcs.exists_id
  exact ⟨m.trim_line hkey, by simp, hcomma, readEntry_line hreadable hkey⟩

theorem listable_of_readList {members : List Member} (h : readList cs = .ok members) :
    ∀ m ∈ members, m.Listable := by
  intro m hm
  obtain ⟨piece, hpiece, hread⟩ := exists_of_mem_mapM h m hm
  obtain ⟨hreadable, hquorum, hclient⟩ := readable_of_readEntry hread
  have hcomma : ',' ∉ piece := by
    obtain ⟨raw, hraw, rfl⟩ := List.mem_map.1 (List.mem_filter.1 hpiece).1
    exact fun hc => (Text.mem_of_mem_splitOn hraw (Text.mem_of_mem_trim hc)).2 rfl
  exact ⟨hreadable, fun hc => hcomma (hquorum _ hc),
    fun hc => (hclient _ hc).elim hcomma (by decide)⟩

end Member

theorem WritesId.readsBack {id : ServerId} {cs : List Char} (h : WritesId id cs) :
    ReadsBack readLeaving id cs := by
  refine ⟨h.trim_eq, h.ne_nil, fun hc => (h.mem hc).elim (by decide) (by decide), ?_⟩
  simp only [readLeaving, h.withoutLead_eq, Text.readWord64?_numeral]

namespace WireRequest

/-- The argument is a list of the items. If it is absent there is none. -/
def Lists {α : Type} (writes : α → List Char → Prop) (items : List α) : Option String → Prop
  | none => items = []
  | some text => ∃ pieces, Listing writes items pieces ∧ Text.join ',' pieces = text.toList

/-- The argument is absent or blank. -/
def Unused (argument : Option String) : Prop :=
  ∀ c ∈ chars argument, Text.isBlank c = true

instance (argument : Option String) : Decidable (Unused argument) :=
  List.decidableBAll _ _

/-- The arguments of one form write out the change, and those of the other are not used. -/
def WritesChange (w : WireRequest) : MemberChange → Prop
  | .incremental joining leaving =>
      Lists Member.Writes joining w.joining ∧ Lists WritesId leaving w.leaving ∧
        Unused w.newMembers
  | .replacement members =>
      Unused w.joining ∧ Unused w.leaving ∧ Lists Member.Writes members w.newMembers

/-- The text spells the version that is expected, or stands for any. -/
def WritesVersion (text : String) : Option Version → Prop
  | none => text = "-1"
  | some version => ∃ p : version.Spelling, p.chars = text.toList

/-- The texts write out the request. -/
structure Writes (w : WireRequest) (r : Request) : Prop where
  change : w.WritesChange r.change
  version : WritesVersion w.version r.expected

section Argument

variable {α : Type} {writes : α → List Char → Prop} {read : List Char → Except Fault α}
  {items : List α} {argument : Option String}

theorem Lists.mapM_pieces (h : Lists writes items argument)
    (hback : ∀ x ∈ items, ∀ text, writes x text → ReadsBack read x text) :
    (Member.pieces (chars argument)).mapM read = .ok items := by
  cases argument with
  | none =>
      rw [show items = [] from h]
      rfl
  | some text =>
      obtain ⟨pieces, hpieces, htext⟩ := h
      rw [show chars (some text) = Text.join ',' pieces from htext.symm]
      exact hpieces.mapM_pieces hback

theorem present_of_mapM (h : (Member.pieces (chars argument)).mapM read = .ok items)
    (hne : items ≠ []) : present argument = true :=
  present_iff.2 (Or.inl (hasEntry_iff.2 (mt (eq_nil_iff_of_mapM h).2 hne)))

theorem present_of_unused (h : Unused argument) : present argument = false := by
  rw [← Bool.not_eq_true, present_iff]
  rintro (⟨c, hc, _, hblank⟩ | hcomma)
  · rw [h c hc] at hblank
    cases hblank
  · exact absurd (h ',' hcomma) (by decide)

end Argument

variable {w : WireRequest} {r : Request} {change : MemberChange}

theorem change_of_writes (h : w.WritesChange change) (hnamed : change.NamesServer)
    (hlistable : ∀ m ∈ change.named, m.Listable) : w.change = .ok change := by
  have hmembers : ∀ m ∈ change.named, ∀ cs, m.Writes cs → ReadsBack Member.readEntry m cs :=
    fun m hm cs hcs => (hlistable m hm).readsBack hcs
  cases change with
  | incremental joining leaving =>
      obtain ⟨hjoining, hleaving, hother⟩ := h
      have hread : Member.readList (chars w.joining) = .ok joining :=
        hjoining.mapM_pieces hmembers
      have hids : readLeavingList (chars w.leaving) = .ok leaving :=
        hleaving.mapM_pieces fun _ _ _ => WritesId.readsBack
      have hpresent : (present w.joining || present w.leaving) = true :=
        Bool.or_eq_true_iff.2 (hnamed.imp (present_of_mapM hread) (present_of_mapM hids))
      rw [WireRequest.change, hpresent, present_of_unused hother, hread, hids]
      rfl
  | replacement members =>
      obtain ⟨hjoining, hleaving, hlist⟩ := h
      have hread : Member.readList (chars w.newMembers) = .ok members :=
        hlist.mapM_pieces hmembers
      rw [WireRequest.change, present_of_unused hjoining, present_of_unused hleaving,
        present_of_mapM hread hnamed, hread]
      rfl

theorem readExpected_of_writes {text : String} {expected : Option Version}
    (h : WritesVersion text expected) : Stamp.readExpected text.toList = .ok expected := by
  cases expected with
  | none =>
      rw [show text = "-1" from h]
      decide +kernel
  | some version =>
      obtain ⟨p, hp⟩ := h
      exact Stamp.readExpected_eq_some_iff.2 (Stamp.read_eq_ok_iff.2 ⟨p, hp⟩)

theorem listable_of_read (h : w.read = .ok r) : ∀ m ∈ r.change.named, m.Listable := by
  rcases change_eq_ok (read_eq_ok h) with ⟨_, _, hchange, hjoining, _⟩ | ⟨_, hchange, hmembers, _⟩
  · rw [hchange]
    exact Member.listable_of_readList hjoining
  · rw [hchange]
    exact Member.listable_of_readList hmembers

theorem read_iff_of_writes (h : w.Writes r) (hnamed : r.change.NamesServer) :
    w.read = .ok r ↔ ∀ m ∈ r.change.named, m.Listable := by
  refine ⟨listable_of_read, fun hlistable => ?_⟩
  exact bind_eq_ok_iff.2 ⟨_, change_of_writes h.change hnamed hlistable,
    bind_eq_ok_iff.2 ⟨_, readExpected_of_writes h.version, rfl⟩⟩

end WireRequest

namespace Request

/-- The texts with a comma between them. -/
def listText (texts : List (List Char)) : String :=
  String.ofList (Text.join ',' texts)

/-- The request as it is sent: the texts of its members and ids, and that of the version. -/
def wire (r : Request) : WireRequest :=
  let version := (r.expected.map Stamp.text).getD "-1"
  match r.change with
  | .incremental joining leaving =>
      { joining := some (listText (joining.map fun m => m.text.toList)),
        leaving := some (listText (leaving.map fun id => (serverText id).toList)),
        newMembers := none, version }
  | .replacement members =>
      { joining := none, leaving := none,
        newMembers := some (listText (members.map fun m => m.text.toList)), version }

theorem lists_listText {α : Type} {writes : α → List Char → Prop} {text : α → List Char}
    (htext : ∀ x, writes x (text x)) (items : List α) :
    WireRequest.Lists writes items (some (listText (items.map text))) :=
  ⟨_, Listing.plain htext items, String.toList_ofList.symm⟩

theorem writes_wire (r : Request) : r.wire.Writes r := by
  obtain ⟨change, expected⟩ := r
  have hversion : WireRequest.WritesVersion ((expected.map Stamp.text).getD "-1") expected := by
    cases expected with
    | none => rfl
    | some version => exact Stamp.read_eq_ok_iff.1 version.read_text
  have hmembers := @lists_listText Member Member.Writes _ fun _ => Or.inl rfl
  have hunused : WireRequest.Unused none := List.forall_mem_nil _
  cases change with
  | incremental joining leaving =>
      exact ⟨⟨hmembers joining, lists_listText (fun _ => Or.inl rfl) leaving, hunused⟩, hversion⟩
  | replacement members => exact ⟨⟨hunused, hunused, hmembers members⟩, hversion⟩

/-- A request that names a server is read back from all texts that write it out, those it is sent
in among them, exactly if its members are listable. -/
theorem readBack_iff_listable (r : Request) (hnamed : r.change.NamesServer) :
    r.wire.Writes r ∧
      ∀ w : WireRequest, w.Writes r → (w.read = .ok r ↔ ∀ m ∈ r.change.named, m.Listable) :=
  ⟨r.writes_wire, fun _ hwrites => WireRequest.read_iff_of_writes hwrites hnamed⟩

/-- A server with a host that holds all separators but a comma. -/
def newcomer : Member :=
  ⟨4, ⟨"h 1", 1⟩, ⟨"h 1", 2⟩, ⟨"a;b=: ", 3⟩, .observer⟩

/-- It joins, and two servers leave. -/
def relief : Request :=
  ⟨.incremental [newcomer] [2, 3], some (.make 1 2)⟩

/-- The same with blanks, blank entries and ids of both forms. -/
def looseRelief : WireRequest :=
  ⟨some ", 4=h 1:1:2:observer;a;b=: :3 ,", some "server.2,,3,", some " ", "0x100000002"⟩

theorem writes_looseRelief : looseRelief.Writes relief := by
  have hnone : ∀ c ∈ ([] : List Char), Text.isBlank c = true := List.forall_mem_nil _
  have hblank : ∀ c ∈ [' '], Text.isBlank c = true := List.forall_mem_singleton.2 (by decide)
  have hline : newcomer.Writes "4=h 1:1:2:observer;a;b=: :3".toList := Or.inr (by decide +kernel)
  have hjoining := Listing.blank hnone (.item hblank hline hblank (.blank hnone .nil))
  have htwo : WritesId 2 "server.2".toList := Or.inr (by decide +kernel)
  have hthree : WritesId 3 "3".toList := Or.inl (by decide +kernel)
  have hleaving := Listing.item hnone htwo hnone
    (.blank hnone (.item hnone hthree hnone (.blank hnone .nil)))
  obtain ⟨p, hp⟩ : ∃ p : (Stamp.make 1 2).Spelling, p.chars = "0x100000002".toList :=
    Stamp.read_eq_ok_iff.1 (by decide +kernel)
  exact ⟨⟨⟨_, hjoining, by decide +kernel⟩, ⟨_, hleaving, by decide +kernel⟩, by decide +kernel⟩,
    p, hp⟩

/-- A comma in a host cuts the line of the member in two. -/
def divided : Request :=
  ⟨.replacement [⟨1, ⟨"h", 1⟩, ⟨"h", 2⟩, ⟨"a,b", 3⟩, .participant⟩], none⟩

theorem readBack_iff_listable_relief :
    relief.change.NamesServer ∧ looseRelief.read = .ok relief ∧ relief.wire.read = .ok relief ∧
      divided.change.NamesServer ∧ divided.wire.read ≠ .ok divided := by
  have hnamed : relief.change.NamesServer := Or.inl (List.cons_ne_nil _ _)
  have hlistable : ∀ m ∈ relief.change.named, m.Listable := by decide +kernel
  obtain ⟨hwire, hread⟩ := readBack_iff_listable relief hnamed
  have hdivided : divided.change.NamesServer := List.cons_ne_nil _ _
  obtain ⟨hwrites, hsplit⟩ := readBack_iff_listable divided hdivided
  exact ⟨hnamed, (hread _ writes_looseRelief).2 hlistable, (hread _ hwire).2 hlistable, hdivided,
    fun h => absurd ((hsplit _ hwrites).1 h) (by decide +kernel)⟩

end Request

end Quorate
