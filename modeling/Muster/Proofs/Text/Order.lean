import Mathlib.Data.List.Lex
import Muster.Text.Utf8

/-!
# Texts and bytes are in one order

Texts are compared character by character, and their UTF-8 bytes come out in the same
order.  Of two characters the one with the higher code never has the shorter encoding, and
a longer encoding begins with a higher byte.  Encodings of one length hold the digits of
the code, the leading ones first.
-/

namespace Muster.Text

theorem cons_ofNat_lt_cons_ofNat {a b : Nat} (ha : a < 256) (hb : b < 256) (s t : List UInt8) :
    UInt8.ofNat a :: s < UInt8.ofNat b :: t ↔ a < b ∨ a = b ∧ s < t := by
  rw [List.cons_lt_cons_iff, UInt8.lt_iff_toNat_lt, ← UInt8.toNat_inj, UInt8.toNat_ofNat',
    UInt8.toNat_ofNat', Nat.mod_eq_of_lt ha, Nat.mod_eq_of_lt hb]

/-- Whatever follows two different characters, they decide the order. -/
theorem append_utf8EncodeChar_lt {c d : Char} (hlt : c < d) (s t : List UInt8) :
    String.utf8EncodeChar c ++ s < String.utf8EncodeChar d ++ t := by
  have hcodes : c.val.toNat < d.val.toNat := hlt
  have hbound : d.val.toNat < 0x110000 := by
    rcases d.valid with hlow | hhigh
    · exact Nat.lt_trans hlow (by decide)
    · exact hhigh.2
  simp only [String.utf8EncodeChar]
  generalize c.val.toNat = code at hcodes ⊢
  generalize d.val.toNat = other at hcodes hbound ⊢
  -- Every digit is taken off the one before it, so that the digits of a code are compared
  -- one by one.
  have htwo (n : Nat) : n / 4096 = n / 64 / 64 := by omega
  have hthree (n : Nat) : n / 262144 = n / 4096 / 64 := by omega
  rw [hthree, hthree, htwo, htwo]
  split_ifs <;> simp only [List.cons_append] <;>
    simp (disch := omega) only [cons_ofNat_lt_cons_ofNat] <;> omega

theorem flatMap_utf8EncodeChar_lt {first second : List Char} (hlt : first < second) :
    first.flatMap String.utf8EncodeChar < second.flatMap String.utf8EncodeChar := by
  induction hlt with
  | @nil c rest =>
      obtain ⟨byte, bytes, hbytes⟩ := List.exists_cons_of_ne_nil (@String.utf8EncodeChar_ne_nil c)
      rw [List.flatMap_nil, List.flatMap_cons, hbytes]
      exact List.nil_lt_cons _ _
  | rel hchar => exact append_utf8EncodeChar_lt hchar _ _
  | cons _ ih =>
      rw [List.flatMap_cons, List.flatMap_cons]
      exact List.append_left_lt ih

theorem utf8_lt_utf8 {s t : String} (hlt : s < t) : utf8 s < utf8 t :=
  flatMap_utf8EncodeChar_lt hlt

end Muster.Text
