import Quorate.Proofs.Fault
import Quorate.Proofs.Stamp.Order
import Quorate.Proofs.Stamp.Text
import Quorate.Proofs.Text.Spelling

/-!
# Spellings of a stamp

A stamp is sent in the fewest digits in lower case, and it is read from every text that differs
from these by upper case letters, zeros, a plus sign and the lead in front, and blanks around. A
`Spelling` is such a text, and exactly the spellings of a stamp are read as this stamp
(`read_eq_ok_iff`). None of them is taken for the wildcard (`readExpected_eq_some_iff`).
-/

namespace Quorate.Stamp

/-- What may stand in front of the digits of a stamp. -/
def fronts : List (List Char) :=
  [[], ['+'], lead, lead ++ ['+']]

/-- A way of writing a stamp: its digits in either case after zeros in any number, behind one of
the `fronts`, and blanks around it all. -/
structure Spelling (s : Stamp) where
  before : List Char
  front : List Char
  digits : List Char
  after : List Char
  blank_before : ∀ c ∈ before, Text.isBlank c = true
  front_mem : front ∈ fronts
  zeros : Nat
  lower_digits : digits.map Char.toLower = List.replicate zeros '0' ++ s.text.toList
  blank_after : ∀ c ∈ after, Text.isBlank c = true

variable {s : Stamp} {cs : List Char}

/-- The text that is written. -/
def Spelling.chars (p : s.Spelling) : List Char :=
  p.before ++ (p.front ++ p.digits) ++ p.after

theorem Spelling.spelled (p : s.Spelling) : Text.Spelled 16 s.word.toNat p.digits :=
  ⟨p.zeros, by rw [p.lower_digits, toList_text]⟩

/-- What is left of a text for the digits. -/
def body (cs : List Char) : List Char :=
  Text.withoutPlus (Text.withoutLead lead cs)

theorem exists_front (cs : List Char) : ∃ front ∈ fronts, cs = front ++ body cs := by
  have hplus : ∀ ds, ds = Text.withoutPlus ds ∨ ds = '+' :: Text.withoutPlus ds := by
    intro ds
    unfold Text.withoutPlus
    split
    · exact Or.inr rfl
    · exact Or.inl rfl
  rw [body, Text.withoutLead]
  cases hstrip : Text.stripLead? lead cs with
  | none =>
      rcases hplus cs with heq | heq
      · exact ⟨[], by decide, heq⟩
      · exact ⟨['+'], by decide, heq⟩
  | some rest =>
      rw [Text.stripLead?_eq_some_iff.1 hstrip]
      rcases hplus rest with heq | heq
      · exact ⟨lead, by decide, congrArg (lead ++ ·) heq⟩
      · exact ⟨lead ++ ['+'], by decide, congrArg (lead ++ ·) heq⟩

/-- Digits are neither a sign nor the end of the lead. -/
theorem body_front {n : Nat} {front digits : List Char} (hdigits : Text.Spelled 16 n digits)
    (hfront : front ∈ fronts) : body (front ++ digits) = digits := by
  have hmem : ∀ c ∈ digits, c.toLower ∈ Text.digitChars := fun c hc =>
    hdigits.toLower_mem (by decide) (by decide) hc
  have hx : 'x' ∉ digits := fun h => absurd (hmem 'x' h) (by decide)
  have hplus : '+' ∉ digits := fun h => absurd (hmem '+' h) (by decide)
  have hplain : Text.withoutPlus digits = digits := by
    unfold Text.withoutPlus
    split
    · exact absurd List.mem_cons_self hplus
    · rfl
  have hlead : ∀ ds, 'x' ∉ ds → Text.withoutLead lead ds = ds := fun ds hds =>
    Text.withoutLead_of_not_lead fun hpre => hds (hpre.subset (by decide))
  simp only [fronts, List.mem_cons, List.not_mem_nil, or_false] at hfront
  rcases hfront with rfl | rfl | rfl | rfl
  · rw [body, List.nil_append, hlead digits hx, hplain]
  · rw [body, hlead _ (by simp [hx])]
    rfl
  · rw [body, Text.withoutLead_append, hplain]
  · rw [body, List.append_assoc, Text.withoutLead_append]
    rfl

theorem trim_front {n : Nat} {front digits : List Char} (hdigits : Text.Spelled 16 n digits)
    (hfront : front ∈ fronts) : Text.trim (front ++ digits) = front ++ digits := by
  have hclean : ∀ c ∈ front ++ digits, Text.isBlank c = false := by
    intro c hc
    rcases List.mem_append.1 hc with hc | hc
    · have hall : (fronts.all fun front => front.all fun c => !Text.isBlank c) = true := by decide
      simpa using List.all_eq_true.1 (List.all_eq_true.1 hall front hfront) c hc
    · rw [← Text.isBlank_toLower]
      exact Text.isBlank_eq_false_of_digit (hdigits.toLower_mem (by decide) (by decide) hc)
  exact Text.trim_eq_self_iff.2
    ⟨fun c hc => hclean c (List.mem_of_head? hc), fun c hc => hclean c (List.mem_of_getLast? hc)⟩

theorem read_eq_ok_iff_numeral : read cs = .ok s ↔
    Text.readNumeral? 16 UInt64.size (Text.withoutLead lead (Text.trim cs)) =
      some s.word.toNat := by
  rw [read]
  split
  · rename_i word hword
    have hlt := Text.readNumeral?_lt hword
    rw [hword, Except.ok.injEq, Option.some.injEq, ext_iff_word, ← UInt64.toNat_inj,
      UInt64.toNat_ofNat_of_lt' hlt]
  · rename_i hnone
    rw [hnone]
    exact iff_of_false (by simp) (by simp)

theorem read_eq_ok_iff_spelled :
    read cs = .ok s ↔ Text.Spelled 16 s.word.toNat (body (Text.trim cs)) := by
  rw [read_eq_ok_iff_numeral, Text.readNumeral?_eq_some_iff (by decide) (by decide),
    and_iff_right s.word.toNat_lt]
  rfl

/-- A stamp is read from exactly its spellings. -/
theorem read_eq_ok_iff : read cs = .ok s ↔ ∃ p : s.Spelling, p.chars = cs := by
  rw [read_eq_ok_iff_spelled]
  constructor
  · intro h
    obtain ⟨before, after, hbefore, hafter, hcs⟩ := Text.exists_blanks cs
    obtain ⟨front, hfront, htrim⟩ := exists_front (Text.trim cs)
    obtain ⟨zeros, hzeros⟩ := h
    rw [← toList_text] at hzeros
    refine ⟨⟨before, front, _, after, hbefore, hfront, zeros, hzeros, hafter⟩, ?_⟩
    rw [Spelling.chars, ← htrim, ← hcs]
  · rintro ⟨p, rfl⟩
    rw [Spelling.chars, Text.trim_blanks p.blank_before p.blank_after,
      trim_front p.spelled p.front_mem, body_front p.spelled p.front_mem]
    exact p.spelled

/-- A text from which a stamp is read is not one that accepts any version. -/
theorem readExpected_eq_some_iff : readExpected cs = .ok (some s) ↔ read cs = .ok s := by
  have htrim : read (Text.trim cs) = read cs := by
    rw [read, read, Text.trim_trim]
  rw [readExpected]
  split
  · rename_i hany
    refine iff_of_false (by simp) fun h => ?_
    rw [← htrim] at h
    rcases hany with hnil | hminus
    · rw [hnil] at h
      cases h
    · rw [hminus] at h
      cases h
  · rw [htrim, map_eq_ok_iff]
    simp

theorem text_eq_digits (s : Stamp) : s.text.toList =
    if s = zero then ['0'] else (Nat.digits 16 s.word.toNat).reverse.map Nat.digitChar := by
  rw [toList_text]
  split
  · rename_i hzero
    rw [hzero]
    rfl
  · rename_i hne
    refine Text.numeral_eq_digits (by decide) fun hword => hne ?_
    exact ext_iff_word.2 (UInt64.toNat_inj.1 hword)

theorem head_text_eq_zero_iff (s : Stamp) : s.text.toList.head? = some '0' ↔ s = zero := by
  rw [toList_text, Text.head_numeral_eq_zero_iff (by decide) (by decide), ext_iff_word,
    ← UInt64.toNat_inj]
  rfl

/-- A stamp is written in the fewest digits in lower case, and exactly its spellings are read as
this stamp, also where a version may be left open. Stamps are ordered by their epochs and then by
their counters, which determine them and may be any. Counting up moves a stamp forward unless the
part that is counted is at its greatest value, and the next epoch is beyond the next counter. -/
theorem wire_and_order :
    (∀ s : Stamp,
      (s.text.toList =
        if s = zero then ['0'] else (Nat.digits 16 s.word.toNat).reverse.map Nat.digitChar) ∧
      (∀ c ∈ s.text.toList, c ∈ Text.digitChars) ∧
      (s.text.toList.head? = some '0' ↔ s = zero) ∧
      read s.text.toList = .ok s ∧ readExpected s.text.toList = .ok (some s) ∧
      (∀ cs, read cs = .ok s ↔ ∃ p : s.Spelling, p.chars = cs) ∧
      ∀ p : s.Spelling, readExpected p.chars = .ok (some s)) ∧
    (∀ a b : Stamp, a < b ↔ a.epoch < b.epoch ∨ a.epoch = b.epoch ∧ a.counter < b.counter) ∧
    (∀ s : Stamp, make s.epoch s.counter = s) ∧
    (∀ epoch counter : UInt32,
      (make epoch counter).epoch = epoch ∧ (make epoch counter).counter = counter) ∧
    ∀ s : Stamp,
      (s < s.nextCounter ↔ s.counter < 0xFFFFFFFF) ∧ (s < s.nextEpoch ↔ s.epoch < 0xFFFFFFFF) ∧
      (s.counter < 0xFFFFFFFF → s.epoch < 0xFFFFFFFF →
        s < s.nextCounter ∧ s.nextCounter < s.nextEpoch) := by
  refine ⟨fun s => ⟨s.text_eq_digits, fun c hc => ?_, s.head_text_eq_zero_iff, s.read_text,
      readExpected_eq_some_iff.2 s.read_text, fun _ => read_eq_ok_iff, fun p => ?_⟩,
    fun _ _ => lt_iff, make_epoch_counter, fun _ _ => ⟨epoch_make _ _, counter_make _ _⟩,
    fun s => ⟨lt_nextCounter_iff, lt_nextEpoch_iff, fun hcounter hepoch => ?_⟩⟩
  · rw [toList_text] at hc
    exact Text.mem_numeral (by decide) (by decide) hc
  · exact readExpected_eq_some_iff.2 (read_eq_ok_iff.2 ⟨p, rfl⟩)
  · exact ⟨lt_nextCounter_iff.2 hcounter, nextCounter_lt_nextEpoch (UInt32.ne_of_lt hepoch)⟩

/-- Blanks, the lead, zeros and digits in both cases. -/
def mixed : (make 0xA 0xBC).Spelling :=
  ⟨[' '], lead, "00A000000Bc".toList, ['\n'], List.forall_mem_singleton.2 (by decide), by decide, 2,
    by decide +kernel, List.forall_mem_singleton.2 (by decide)⟩

theorem wire_and_order_mixed :
    read " 0x00A000000Bc\n".toList = .ok (make 0xA 0xBC) ∧
      readExpected " 0x00A000000Bc\n".toList = .ok (some (make 0xA 0xBC)) ∧
      'b' ∈ Text.digitChars ∧ make 0xA 0xBC < make 0xA 0xBD ∧ make 0xA 0xBD < make 0xB 0 := by
  obtain ⟨hwire, _, _, _, hnext⟩ := wire_and_order
  obtain ⟨_, hlower, _, _, _, hread, hexpected⟩ := hwire (make 0xA 0xBC)
  have hchars : mixed.chars = " 0x00A000000Bc\n".toList := by decide +kernel
  have horder := (hnext (make 0xA 0xBC)).2.2 (by decide +kernel) (by decide +kernel)
  exact ⟨(hread _).2 ⟨mixed, hchars⟩, hchars ▸ hexpected mixed, hlower 'b' (by decide +kernel),
    horder⟩

end Quorate.Stamp
