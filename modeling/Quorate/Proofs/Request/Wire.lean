import Mathlib.Logic.Basic
import Quorate.Proofs.Change
import Quorate.Proofs.Member.Text
import Quorate.Request.Wire

/-!
# Requests that name no server

An argument of a request counts as given if it is not blank, and its entries are what stands
between its commas, blank pieces left out. Both say of an argument without a comma that it is given
if it has an entry (`present_iff`). Commas with nothing but blanks between them are given without
an entry.

So a request that is accepted names a server unless all its arguments are without an entry, and
commas alone have stood for one of the two forms (`names_iff_not_hollow`).
-/

namespace Quorate

/-- The change names a server, as one to add, to remove or to keep. -/
def MemberChange.NamesServer : MemberChange → Prop
  | .incremental joining leaving => joining ≠ [] ∨ leaving ≠ []
  | .replacement members => members ≠ []

theorem Member.pieces_eq_nil_iff {cs : List Char} :
    pieces cs = [] ↔ ∀ c ∈ cs, c ≠ ',' → Text.isBlank c = true := by
  have hpieces : pieces cs = [] ↔
      ∀ piece ∈ Text.splitOn ',' cs, ∀ c ∈ piece, Text.isBlank c = true := by
    simp [pieces, List.filter_eq_nil_iff, Text.trim_eq_nil_iff]
  rw [hpieces]
  constructor
  · intro h c hc hne
    obtain ⟨piece, hpiece, hmem⟩ := Text.exists_mem_splitOn hc hne
    exact h piece hpiece c hmem
  · intro h piece hpiece c hc
    obtain ⟨hmem, hne⟩ := Text.mem_of_mem_splitOn hpiece hc
    exact h c hmem hne

namespace WireRequest

/-- There is something between the commas of an argument. -/
def HasEntry (argument : Option String) : Prop :=
  ∃ c ∈ chars argument, c ≠ ',' ∧ Text.isBlank c = false

/-- One of the arguments has an entry. -/
def Supplies (w : WireRequest) : Prop :=
  HasEntry w.joining ∨ HasEntry w.leaving ∨ HasEntry w.newMembers

/-- There is no entry, and commas in the arguments of one form of a change. -/
def Hollow (w : WireRequest) : Prop :=
  ¬ w.Supplies ∧
    Xor (',' ∈ chars w.joining ∨ ',' ∈ chars w.leaving) (',' ∈ chars w.newMembers)

-- Given by name: a search may find the instance that enumerates all characters instead.
instance (argument : Option String) : Decidable (HasEntry argument) :=
  List.decidableBEx _ _

instance (w : WireRequest) : Decidable w.Supplies :=
  inferInstanceAs (Decidable (_ ∨ _ ∨ _))

instance (w : WireRequest) : Decidable w.Hollow :=
  inferInstanceAs (Decidable (_ ∧ ((_ ∧ _) ∨ (_ ∧ _))))

/-- The version that is expected can be read. -/
def Legible (w : WireRequest) : Prop :=
  ∃ expected, Stamp.readExpected w.version.toList = .ok expected

variable {w : WireRequest} {argument : Option String} {change : MemberChange}

theorem hasEntry_iff : HasEntry argument ↔ Member.pieces (chars argument) ≠ [] := by
  rw [ne_eq, Member.pieces_eq_nil_iff]
  simp [HasEntry]

/-- An argument is given if it has an entry or a comma. -/
theorem present_iff : present argument = true ↔ HasEntry argument ∨ ',' ∈ chars argument := by
  have hblank : present argument = true ↔ ∃ c ∈ chars argument, Text.isBlank c = false := by
    cases argument with
    | none => simp [present, chars]
    | some text =>
        rw [present, Option.any_some, decide_eq_true_iff, ne_eq, Text.trim_eq_nil_iff]
        simp [chars]
  rw [hblank]
  constructor
  · rintro ⟨c, hc, hcb⟩
    by_cases hcomma : c = ','
    · exact Or.inr (hcomma ▸ hc)
    · exact Or.inl ⟨c, hc, hcomma, hcb⟩
  · rintro (⟨c, hc, _, hcb⟩ | hcomma)
    · exact ⟨c, hc, hcb⟩
    · exact ⟨',', hcomma, by decide⟩

/-- Only one form of a change is read, and the other one is not given. -/
theorem change_eq_ok (h : w.change = .ok change) :
    (∃ joining leaving, change = .incremental joining leaving ∧
      Member.readList (chars w.joining) = .ok joining ∧
      readLeavingList (chars w.leaving) = .ok leaving ∧ present w.newMembers = false) ∨
    ∃ members, change = .replacement members ∧
      Member.readList (chars w.newMembers) = .ok members ∧
      present w.joining = false ∧ present w.leaving = false := by
  unfold WireRequest.change at h
  split at h
  · cases h
  · cases h
  · rename_i hnone
    obtain ⟨joining, hjoining, h⟩ := bind_eq_ok_iff.1 h
    obtain ⟨leaving, hleaving, h⟩ := bind_eq_ok_iff.1 h
    cases h
    exact Or.inl ⟨joining, leaving, rfl, hjoining, hleaving, hnone⟩
  · rename_i hnone _
    obtain ⟨members, hmembers, h⟩ := bind_eq_ok_iff.1 h
    cases h
    obtain ⟨hjoining, hleaving⟩ := Bool.or_eq_false_iff.1 hnone
    exact Or.inr ⟨members, rfl, hmembers, hjoining, hleaving⟩

theorem read_eq_ok {request : Request} (h : w.read = .ok request) :
    w.change = .ok request.change := by
  obtain ⟨change, hchange, h⟩ := bind_eq_ok_iff.1 h
  obtain ⟨expected, _, h⟩ := bind_eq_ok_iff.1 h
  cases h
  exact hchange

theorem not_hasEntry_of_not_present (h : present argument = false) : ¬ HasEntry argument := by
  intro hentry
  rw [present_iff.2 (Or.inl hentry)] at h
  cases h

/-- What is read names a server exactly if an argument has an entry. -/
theorem namesServer_iff (h : w.change = .ok change) : change.NamesServer ↔ w.Supplies := by
  rcases change_eq_ok h with ⟨joining, leaving, rfl, hjoining, hleaving, hnone⟩ |
    ⟨members, rfl, hmembers, hjoining, hleaving⟩
  · rw [Supplies, or_iff_left (not_hasEntry_of_not_present hnone), hasEntry_iff, hasEntry_iff,
      ne_eq, ne_eq, ← eq_nil_iff_of_mapM hjoining, ← eq_nil_iff_of_mapM hleaving]
    rfl
  · rw [Supplies, or_iff_right (not_hasEntry_of_not_present hjoining),
      or_iff_right (not_hasEntry_of_not_present hleaving), hasEntry_iff, ne_eq,
      ← eq_nil_iff_of_mapM hmembers]
    rfl

/-- Without an entry a change is read from commas, if they are those of one form. -/
theorem change_of_not_supplies (h : ¬ w.Supplies) :
    ((∃ change, w.change = .ok change) ↔ w.Hollow) ∧
      ∀ fault, w.change = .error fault → ∃ cause, fault = .badArguments cause := by
  obtain ⟨hjoining, hrest⟩ := not_or.1 h
  obtain ⟨hleaving, hmembers⟩ := not_or.1 hrest
  have hcomma : ∀ {argument}, ¬ HasEntry argument →
      (',' ∈ chars argument ↔ present argument = true) := by
    intro argument hnone
    rw [present_iff, or_iff_right hnone]
  have hpieces : ∀ {argument}, ¬ HasEntry argument → Member.pieces (chars argument) = [] :=
    fun hnone => not_not.1 (mt hasEntry_iff.2 hnone)
  have hlist : ∀ {argument}, ¬ HasEntry argument → Member.readList (chars argument) = .ok [] := by
    intro argument hnone
    rw [Member.readList, hpieces hnone]
    rfl
  have hids : readLeavingList (chars w.leaving) = .ok [] := by
    rw [readLeavingList, hpieces hleaving]
    rfl
  rw [Hollow, and_iff_right h, hcomma hjoining, hcomma hleaving, hcomma hmembers,
    ← Bool.or_eq_true, change, hlist hjoining, hlist hmembers, hids]
  cases present w.joining || present w.leaving with
  | false =>
      cases present w.newMembers with
      | false => exact ⟨by simp [Xor], fun _ hfault => ⟨_, by cases hfault; rfl⟩⟩
      | true => exact ⟨iff_of_true ⟨_, rfl⟩ (by simp [Xor]), fun _ hfault => nomatch hfault⟩
  | true =>
      cases present w.newMembers with
      | false => exact ⟨iff_of_true ⟨_, rfl⟩ (by simp [Xor]), fun _ hfault => nomatch hfault⟩
      | true => exact ⟨by simp [Xor], fun _ hfault => ⟨_, by cases hfault; rfl⟩⟩

theorem readExpected_error {cs : List Char} {fault : Fault}
    (h : Stamp.readExpected cs = .error fault) : ∃ cause, fault = .badArguments cause := by
  unfold Stamp.readExpected at h
  dsimp only at h
  split at h
  · cases h
  · unfold Stamp.read at h
    dsimp only at h
    split at h <;> cases h
    exact ⟨_, rfl⟩

/-- An accepted request names a server unless it is hollow. Without an entry, a request is
accepted exactly if it is hollow and its version can be read, and any other one is refused for its
arguments. -/
theorem names_iff_not_hollow (w : WireRequest) :
    (∀ request, w.read = .ok request → (request.change.NamesServer ↔ ¬ w.Hollow)) ∧
      (¬ w.Supplies →
        ((∃ request, w.read = .ok request) ↔ w.Hollow ∧ w.Legible) ∧
          ∀ fault, w.read = .error fault → ∃ cause, fault = .badArguments cause) := by
  refine ⟨fun request hread => ?_, fun hnone => ⟨?_, fun fault hread => ?_⟩⟩
  · have hchange := read_eq_ok hread
    rw [namesServer_iff hchange]
    refine ⟨fun hsupplies hhollow => hhollow.1 hsupplies, fun hnot => ?_⟩
    by_contra hnone
    exact hnot ((change_of_not_supplies hnone).1.1 ⟨_, hchange⟩)
  · rw [← (change_of_not_supplies hnone).1]
    constructor
    · rintro ⟨request, hread⟩
      obtain ⟨change, hchange, hrest⟩ := bind_eq_ok_iff.1 hread
      obtain ⟨expected, hexpected, _⟩ := bind_eq_ok_iff.1 hrest
      exact ⟨⟨change, hchange⟩, expected, hexpected⟩
    · rintro ⟨⟨change, hchange⟩, expected, hexpected⟩
      exact ⟨⟨change, expected⟩,
        bind_eq_ok_iff.2 ⟨change, hchange, bind_eq_ok_iff.2 ⟨expected, hexpected, rfl⟩⟩⟩
  · rcases bind_eq_error_iff.1 hread with hchange | ⟨change, _, hrest⟩
    · exact (change_of_not_supplies hnone).2 fault hchange
    rcases bind_eq_error_iff.1 hrest with hexpected | ⟨_, _, hrest⟩
    · exact readExpected_error hexpected
    · cases hrest

/-- A comma stands for servers that join. -/
def comma : WireRequest :=
  ⟨some ",", none, none, "-1"⟩

/-- It is accepted as a request that names no server. -/
theorem names_iff_not_hollow_comma :
    ∃ request, comma.read = .ok request ∧ ¬ request.change.NamesServer := by
  have hhollow : comma.Hollow := by decide +kernel
  obtain ⟨hnames, haccepted⟩ := names_iff_not_hollow comma
  obtain ⟨request, hread⟩ := (haccepted hhollow.1).1.2 ⟨hhollow, none, by decide +kernel⟩
  exact ⟨request, hread, fun hnamed => (hnames request hread).1 hnamed hhollow⟩

/-- The comma is read as the request that nobody joins and nobody leaves, and this is granted as a
change that leaves all members as they are. -/
theorem read_comma :
    comma.read = .ok ⟨.incremental [] [], none⟩ ∧
      ¬ (MemberChange.incremental [] []).NamesServer ∧
        Change.compute .trio (.incremental [] []) = .ok ⟨Roster.trio.members, []⟩ := by
  refine ⟨by decide +kernel, by simp [MemberChange.NamesServer], ?_⟩
  exact Change.compute_eq_ok_iff.2 ⟨by decide +kernel, by decide +kernel⟩

end WireRequest

end Quorate
