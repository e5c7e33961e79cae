import Quorate.Proofs.Text.Numeral
import Quorate.Stamp.Reader

/-!
# Stamps as text

A stamp is read back from the text that is sent for it: its digits are not trimmed, and none
of them is the letter of the lead that may stand in front.
-/

namespace Quorate.Stamp

theorem toList_text (s : Stamp) : s.text.toList = Text.numeral 16 s.word.toNat :=
  Text.toList_hexadecimal s.word.toNat

theorem withoutLead_numeral (n : Nat) :
    Text.withoutLead lead (Text.numeral 16 n) = Text.numeral 16 n := by
  have hletter : 'x' ∉ Text.numeral 16 n :=
    Text.not_mem_numeral (by decide) (by decide) (by decide) n
  refine Text.withoutLead_of_not_lead fun hlead => hletter (hlead.subset ?_)
  exact List.mem_cons_of_mem '0' List.mem_cons_self

theorem read_text (s : Stamp) : read s.text.toList = .ok s := by
  have htrim := Text.trim_append_numeral (by decide) (by decide : 16 ≤ 16) Text.trimLeft_nil
    s.word.toNat
  rw [List.nil_append, ← toList_text] at htrim
  have hword : Text.readNumeral? 16 UInt64.size (Text.withoutLead lead s.text.toList) =
      some s.word.toNat := by
    rw [toList_text, withoutLead_numeral]
    exact Text.readNumeral?_numeral (by decide) (by decide) s.word.toNat_lt
  simp only [read, htrim, hword, UInt64.ofNat_toNat]

end Quorate.Stamp
