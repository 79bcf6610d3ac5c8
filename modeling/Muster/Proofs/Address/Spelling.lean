import Mathlib.Data.List.Basic
import Mathlib.Data.List.Induction
import Mathlib.Tactic.IntervalCases
import Muster.Address.Basic

/-!
# Addresses are read from every spelling of an identity

The text of an identity is 32 lower-case hexadecimal digits with hyphens between them.  A text
spells the identity if, letter case aside, it is that text, the bare digits, the text in braces
or the text after `urn:uuid:`.  Exactly these texts are read, and what is read is printed with
the same digits again.
-/

namespace Muster

namespace Uuid

def lower (text : List Char) : List Char :=
  text.map Char.toLower

/-- The ways to set out the digits of an identity. -/
inductive Form
  | grouped
  | bare
  | braced
  | urn

def Form.write : Form → List Char → List Char
  | grouped, digits => hyphenated digits
  | bare, digits => digits
  | braced, digits => '\x7b' :: (hyphenated digits ++ ['\x7d'])
  | urn, digits => urnHead ++ hyphenated digits

/-- Whether a text sets out the digits of an identity, in any mixture of letter case. -/
def Spells (text : String) (id : Uuid) : Prop :=
  ∃ form : Form, lower text.toList = form.write id.digits

/-! ## Digits -/

theorem toNat_toLower (c : Char) :
    c.toLower.toNat = if 65 ≤ c.toNat ∧ c.toNat ≤ 90 then c.toNat + 32 else c.toNat := by
  have hupper : c.val ≥ 'A'.val ∧ c.val ≤ 'Z'.val ↔ 65 ≤ c.toNat ∧ c.toNat ≤ 90 := by
    simp [UInt32.le_iff_toNat_le]
  unfold Char.toLower
  split
  next hletter =>
    have hrange := hupper.mp hletter
    have hcode : (c.val + ('a'.val - 'A'.val)).toNat = c.toNat + 32 := by
      rw [UInt32.toNat_add]
      change (c.toNat + 32) % 4294967296 = c.toNat + 32
      omega
    rw [if_pos hrange, ← hcode]
    rfl
  next hother => rw [if_neg (fun hrange => hother (hupper.mpr hrange))]

/-- Letter case aside, a character without a case is only itself. -/
theorem toLower_eq_iff {c plain : Char} (hplain : plain.toNat < 65 ∨ 122 < plain.toNat) :
    c.toLower = plain ↔ c = plain := by
  rw [← Char.toNat_inj, ← Char.toNat_inj, toNat_toLower]
  split <;> omega

theorem toNat_hexDigit {value : Nat} (hsmall : value < 16) :
    (hexDigit value).toNat = if value < 10 then 48 + value else 87 + value := by
  interval_cases value <;> rfl

theorem hexValue?_eq (c : Char) :
    hexValue? c =
      if 48 ≤ c.toNat ∧ c.toNat ≤ 57 then some (c.toNat - 48)
      else if 97 ≤ c.toNat ∧ c.toNat ≤ 102 then some (c.toNat - 97 + 10)
      else if 65 ≤ c.toNat ∧ c.toNat ≤ 70 then some (c.toNat - 65 + 10)
      else none := by
  simp [hexValue?, Char.isDigit, Char.le_def, UInt32.le_iff_toNat_le]

theorem hexValue?_eq_some_iff {c : Char} {value : Nat} :
    hexValue? c = some value ↔ value < 16 ∧ c.toLower = hexDigit value := by
  rw [hexValue?_eq, ← Char.toNat_inj, toNat_toLower]
  constructor
  · intro hvalue
    have hsmall : value < 16 := by grind
    rw [toNat_hexDigit hsmall]
    grind
  · rintro ⟨hsmall, hsame⟩
    rw [toNat_hexDigit hsmall] at hsame
    grind

@[simp] theorem length_hexDigits (count value : Nat) : (hexDigits count value).length = count := by
  induction count generalizing value with
  | zero => rfl
  | succ count ih => simp [hexDigits, ih]

theorem mem_hexDigits {count value : Nat} {c : Char} (hc : c ∈ hexDigits count value) :
    ∃ digit < 16, c = hexDigit digit := by
  induction count generalizing value with
  | zero => contradiction
  | succ count ih =>
      rcases List.mem_append.mp hc with hearlier | hlast
      · exact ih hearlier
      · exact ⟨value % 16, Nat.mod_lt _ (by decide), List.mem_singleton.mp hlast⟩

/-- The digits of a number whose last ones are known. -/
theorem hexDigits_append (count others : Nat) (value : Nat) {rest : Nat}
    (hrest : rest < 16 ^ others) :
    hexDigits (count + others) (value * 16 ^ others + rest) =
      hexDigits count value ++ hexDigits others rest := by
  induction others generalizing rest with
  | zero =>
      obtain rfl : rest = 0 := by simpa using hrest
      simp [hexDigits]
  | succ others ih =>
      have hsplit : value * 16 ^ (others + 1) + rest =
          16 * (value * 16 ^ others + rest / 16) + rest % 16 := by
        rw [Nat.pow_succ, Nat.mul_add, Nat.add_assoc, Nat.div_add_mod]
        congr 1
        rw [Nat.mul_comm (16 ^ others), Nat.mul_left_comm]
      have hfewer : rest / 16 < 16 ^ others := by
        rw [Nat.pow_succ] at hrest
        omega
      rw [hsplit, ← Nat.add_assoc, hexDigits, hexDigits, ← List.append_assoc, ← ih hfewer]
      congr 3 <;> omega

/-- Digits stand for a number if, letter case aside, they are its digits. -/
theorem hexNumber?_eq_some_iff {digits : List Char} {value : Nat} :
    hexNumber? digits = some value ↔
      value < 16 ^ digits.length ∧ lower digits = hexDigits digits.length value := by
  induction digits using List.reverseRecOn generalizing value with
  | nil => simp [hexNumber?, lower, hexDigits, eq_comm]
  | append_singleton digits c ih =>
      have hlast : hexNumber? (digits ++ [c]) = (hexNumber? digits).bind fun earlier =>
          (hexValue? c).map (16 * earlier + ·) := by
        simp [hexNumber?, List.foldlM_append]
      have hlower : lower (digits ++ [c]) = lower digits ++ [c.toLower] := by simp [lower]
      rw [hlast, hlower, List.length_append, List.length_singleton, hexDigits, Nat.pow_succ]
      simp only [Option.bind_eq_some_iff, Option.map_eq_some_iff, ih, hexValue?_eq_some_iff]
      constructor
      · rintro ⟨earlier, ⟨hearlier, hsame⟩, digit, ⟨hsmall, hdigit⟩, rfl⟩
        rw [Nat.mul_add_div (by decide), Nat.div_eq_of_lt hsmall, Nat.mul_add_mod,
          Nat.mod_eq_of_lt hsmall, hsame, hdigit]
        exact ⟨by omega, rfl⟩
      · rintro ⟨hvalue, hsame⟩
        obtain ⟨hearlier, hdigit⟩ := List.append_inj' hsame rfl
        exact ⟨value / 16, ⟨by omega, hearlier⟩, value % 16,
          ⟨Nat.mod_lt _ (by decide), List.head_eq_of_cons_eq hdigit⟩, by omega⟩

theorem digits_eq (id : Uuid) :
    id.digits = hexDigits 32 (id.high.toNat * 2 ^ 64 + id.low.toNat) :=
  (hexDigits_append 16 16 _ id.low.toNat_lt).symm

theorem length_digits (id : Uuid) : id.digits.length = 32 := by
  simp [digits]

theorem ofDigits?_eq_some_iff {digits : List Char} {id : Uuid} :
    ofDigits? digits = some id ↔ lower digits = id.digits := by
  have hparts (hlength : digits.length = 32) :
      (digits.take 16).length = 16 ∧ (digits.drop 16).length = 16 := by
    simp [hlength]
  have hsplit : lower digits = lower (digits.take 16) ++ lower (digits.drop 16) := by
    rw [lower, lower, lower, ← List.map_append, List.take_append_drop]
  have hdo : ofDigits? digits = some id ↔ digits.length = 32 ∧
      ∃ high, hexNumber? (digits.take 16) = some high ∧
        ∃ low, hexNumber? (digits.drop 16) = some low ∧
          (⟨UInt64.ofNat high, UInt64.ofNat low⟩ : Uuid) = id := by
    unfold ofDigits?
    split
    next hlength => simp [hlength]
    next hlength => simp [Decidable.not_not.mp hlength, Option.bind_eq_some_iff]
  rw [hdo]
  constructor
  · rintro ⟨hlength, high, hhigh, low, hlow, rfl⟩
    rw [hexNumber?_eq_some_iff, (hparts hlength).1] at hhigh
    rw [hexNumber?_eq_some_iff, (hparts hlength).2] at hlow
    rw [hsplit, hhigh.2, hlow.2, Uuid.digits, UInt64.toNat_ofNat_of_lt' hhigh.1,
      UInt64.toNat_ofNat_of_lt' hlow.1]
  · intro hsame
    have hlength : digits.length = 32 := by
      rw [← id.length_digits, ← hsame, lower, List.length_map]
    rw [hsplit, Uuid.digits] at hsame
    obtain ⟨hhigh, hlow⟩ := List.append_inj hsame (by simp [lower, hlength])
    refine ⟨hlength, id.high.toNat, ?_, id.low.toNat, ?_, by simp⟩
    · rw [hexNumber?_eq_some_iff, (hparts hlength).1]
      exact ⟨id.high.toNat_lt, hhigh⟩
    · rw [hexNumber?_eq_some_iff, (hparts hlength).2]
      exact ⟨id.low.toNat_lt, hlow⟩

/-- Neither a hyphen nor a brace is a digit, in whatever letter case. -/
theorem ne_of_lower_eq_digits {digits : List Char} {id : Uuid} (hsame : lower digits = id.digits)
    {c : Char} (hc : c ∈ digits) : c ≠ '-' ∧ c ≠ '\x7b' := by
  have hlower : c.toLower ∈ hexDigits 32 (id.high.toNat * 2 ^ 64 + id.low.toNat) := by
    rw [← digits_eq, ← hsame]
    exact List.mem_map_of_mem hc
  obtain ⟨digit, hsmall, hdigit⟩ := mem_hexDigits hlower
  have hcode := toNat_hexDigit hsmall
  rw [← hdigit] at hcode
  constructor
  · rintro rfl
    have hhyphen : '-'.toLower.toNat = 45 := rfl
    split at hcode <;> omega
  · rintro rfl
    have hbrace : '\x7b'.toLower.toNat = 123 := rfl
    split at hcode <;> omega

/-! ## Groups of digits -/

theorem length_hyphenated {digits : List Char} (hlength : digits.length = 32) :
    (hyphenated digits).length = 36 := by
  simp [hyphenated, hlength]

theorem lower_hyphenated (digits : List Char) :
    lower (hyphenated digits) = hyphenated (lower digits) := by
  simp [lower, hyphenated, List.map_take, List.map_drop]

theorem hyphenated_append {first second third fourth : List Char} (hfirst : first.length = 8)
    (hsecond : second.length = 4) (hthird : third.length = 4) (hfourth : fourth.length = 4)
    (fifth : List Char) :
    hyphenated (first ++ (second ++ (third ++ (fourth ++ fifth)))) =
      first ++ '-' :: (second ++ '-' :: (third ++ '-' :: (fourth ++ '-' :: fifth))) := by
  simp [hyphenated, List.drop_append, List.drop_eq_nil_of_le, hfirst, hsecond, hthird, hfourth]

theorem groups_append (digits : List Char) :
    digits.take 8 ++ ((digits.drop 8).take 4 ++ ((digits.drop 12).take 4 ++
      ((digits.drop 16).take 4 ++ digits.drop 20))) = digits := by
  have hjoin (count : Nat) :
      (digits.drop count).take 4 ++ digits.drop (count + 4) = digits.drop count := by
    rw [← List.drop_drop, List.take_append_drop]
  rw [hjoin 16, hjoin 12, hjoin 8, List.take_append_drop]

theorem filter_hyphenated {digits : List Char} (hplain : ∀ c ∈ digits, c ≠ '-') :
    (hyphenated digits).filter (· ≠ '-') = digits := by
  have hkeep {part : List Char} (hpart : part ⊆ digits) : part.filter (· ≠ '-') = part :=
    List.filter_eq_self.mpr fun c hc => decide_eq_true (hplain c (hpart hc))
  have hdrop (count : Nat) : (digits.drop count).take 4 ⊆ digits :=
    List.Subset.trans (List.take_subset _ _) (List.drop_subset _ _)
  simp only [hyphenated, List.filter_append, List.filter_cons, ne_eq, not_true, decide_false,
    Bool.false_eq_true, if_false]
  rw [hkeep (List.take_subset _ _), hkeep (hdrop 8), hkeep (hdrop 12), hkeep (hdrop 16),
    hkeep (List.drop_subset _ _), groups_append]

theorem unhyphenated?_hyphenated {digits : List Char} (hlength : digits.length = 32)
    (hplain : ∀ c ∈ digits, c ≠ '-') : unhyphenated? (hyphenated digits) = some digits := by
  rw [unhyphenated?, filter_hyphenated hplain, if_pos ⟨rfl, hlength⟩]

theorem eq_hyphenated_of_unhyphenated? {text digits : List Char}
    (hread : unhyphenated? text = some digits) :
    text = hyphenated digits ∧ digits.length = 32 := by
  simp only [unhyphenated?] at hread
  split at hread
  next hgrouped =>
    obtain rfl := Option.some.inj hread
    exact hgrouped
  · contradiction

/-- A text that, letter case aside, consists of groups of digits has such groups itself. -/
theorem exists_hyphenated_of_lower {text digits : List Char} (hlength : digits.length = 32)
    (hsame : lower text = hyphenated digits) :
    ∃ raw, text = hyphenated raw ∧ lower raw = digits := by
  have hhyphen {c : Char} (hc : c.toLower = '-') : c = '-' :=
    (toLower_eq_iff (.inl (by decide))).mp hc
  have hcount {part raw : List Char} {count : Nat} (hpart : raw.map Char.toLower = part)
      (hcount : part.length = count) : raw.length = count := by
    rw [← hcount, ← hpart, List.length_map]
  simp only [lower, hyphenated, List.map_eq_append_iff, List.map_eq_cons_iff] at hsame
  obtain ⟨first, -, rfl, hfirst, c, -, rfl, hc, second, -, rfl, hsecond, d, -, rfl, hd, third, -,
    rfl, hthird, e, -, rfl, he, fourth, f, rfl, hfourth, g, fifth, rfl, hf, hfifth⟩ := hsame
  obtain rfl := hhyphen hc
  obtain rfl := hhyphen hd
  obtain rfl := hhyphen he
  obtain rfl := hhyphen hf
  refine ⟨first ++ (second ++ (third ++ (fourth ++ fifth))), ?_, ?_⟩
  · rw [hyphenated_append (hcount hfirst (by simp [hlength])) (hcount hsecond (by simp [hlength]))
      (hcount hthird (by simp [hlength])) (hcount hfourth (by simp [hlength]))]
  · simp only [lower, List.map_append]
    rw [hfirst, hsecond, hthird, hfourth, hfifth, groups_append]

/-! ## The four forms -/

theorem head?_hyphenated {digits : List Char} (hlength : digits.length = 32) :
    ∃ c ∈ digits, (hyphenated digits).head? = some c := by
  obtain ⟨c, rest, rfl⟩ := List.exists_cons_of_length_eq_add_one hlength
  exact ⟨c, List.mem_cons_self, rfl⟩

theorem not_urnHead {digits : List Char} (hlength : digits.length = 32) :
    ((hyphenated digits).take urnHead.length).map Char.toLower ≠ urnHead := by
  intro hsame
  have hcount : urnHead.length = 9 := rfl
  have hlast : urnHead.getLast? = some ':' := rfl
  have hninth : (hyphenated digits).take 9 = digits.take 8 ++ ['-'] := by
    simp [hyphenated, List.take_append, List.take_take, hlength]
  rw [hcount, hninth, List.map_append] at hsame
  rw [← hsame, List.map_singleton, List.getLast?_concat] at hlast
  exact absurd hlast (by decide)

theorem spelledDigits?_grouped {digits : List Char} (hlength : digits.length = 32)
    (hplain : ∀ c ∈ digits, c ≠ '-' ∧ c ≠ '\x7b') :
    spelledDigits? (hyphenated digits) = some digits := by
  obtain ⟨c, hc, hhead⟩ := head?_hyphenated hlength
  have hopen : ¬((hyphenated digits).head? = some '\x7b' ∧
      (hyphenated digits).getLast? = some '\x7d') := by
    rw [hhead, Option.some.injEq]
    exact fun hbraces => (hplain c hc).2 hbraces.1
  rw [spelledDigits?, length_hyphenated hlength, if_neg (by decide), if_neg hopen,
    if_neg (not_urnHead hlength)]
  exact unhyphenated?_hyphenated hlength fun c hc => (hplain c hc).1

theorem spelledDigits?_braced {digits : List Char} (hlength : digits.length = 32)
    (hplain : ∀ c ∈ digits, c ≠ '-' ∧ c ≠ '\x7b') :
    spelledDigits? ('\x7b' :: (hyphenated digits ++ ['\x7d'])) = some digits := by
  have hlong : ('\x7b' :: (hyphenated digits ++ ['\x7d'])).length = 38 := by
    simp [length_hyphenated hlength]
  have hbraces : ('\x7b' :: (hyphenated digits ++ ['\x7d'])).getLast? = some '\x7d' := by
    rw [← List.cons_append, List.getLast?_concat]
  rw [spelledDigits?, hlong, if_neg (by decide), if_pos ⟨rfl, hbraces⟩, List.drop_one,
    List.tail_cons, List.dropLast_concat]
  exact unhyphenated?_hyphenated hlength fun c hc => (hplain c hc).1

theorem spelledDigits?_urn {head digits : List Char} (hhead : lower head = urnHead)
    (hlength : digits.length = 32) (hplain : ∀ c ∈ digits, c ≠ '-' ∧ c ≠ '\x7b') :
    spelledDigits? (head ++ hyphenated digits) = some digits := by
  have hshort : head.length = urnHead.length := by rw [← hhead, lower, List.length_map]
  have hlong : (head ++ hyphenated digits).length = 45 := by
    rw [List.length_append, hshort, length_hyphenated hlength]
    rfl
  have hopen : ¬((head ++ hyphenated digits).head? = some '\x7b' ∧
      (head ++ hyphenated digits).getLast? = some '\x7d') := by
    rintro ⟨hbrace, -⟩
    obtain ⟨c, rest, rfl⟩ := List.exists_cons_of_length_pos (by rw [hshort]; decide)
    obtain rfl : c = '\x7b' := by simpa using hbrace
    exact absurd (List.head_eq_of_cons_eq hhead) (by decide)
  rw [spelledDigits?, hlong, if_neg (by decide), if_neg hopen, ← hshort, List.take_left,
    List.drop_left, ← lower, if_pos hhead]
  exact unhyphenated?_hyphenated hlength fun c hc => (hplain c hc).1

/-- A text from which digits are read sets them out in one of the four forms. -/
theorem lower_of_spelledDigits? {text digits : List Char}
    (hread : spelledDigits? text = some digits) :
    ∃ form : Form, lower text = form.write (lower digits) := by
  unfold spelledDigits? at hread
  split at hread
  · obtain rfl := Option.some.inj hread
    exact ⟨.bare, rfl⟩
  split at hread
  next hbraces =>
    obtain ⟨rest, rfl⟩ := List.head?_eq_some_iff.mp hbraces.1
    rw [List.drop_one, List.tail_cons] at hread
    rcases List.eq_nil_or_concat' rest with rfl | ⟨middle, last, rfl⟩
    · exact absurd hbraces.2 (by decide)
    · have hlast := hbraces.2
      rw [← List.cons_append, List.getLast?_concat] at hlast
      obtain rfl := Option.some.inj hlast
      rw [List.dropLast_concat] at hread
      refine ⟨.braced, ?_⟩
      rw [Form.write, ← lower_hyphenated, ← (eq_hyphenated_of_unhyphenated? hread).1]
      simp [lower]
  split at hread
  next hhead =>
    have hgrouped := (eq_hyphenated_of_unhyphenated? hread).1
    refine ⟨.urn, ?_⟩
    calc lower text = lower (text.take urnHead.length) ++ lower (text.drop urnHead.length) := by
          rw [lower, lower, lower, ← List.map_append, List.take_append_drop]
      _ = urnHead ++ hyphenated (lower digits) := by
          rw [hgrouped, lower_hyphenated, lower, hhead]
  · refine ⟨.grouped, ?_⟩
    rw [Form.write, ← lower_hyphenated, ← (eq_hyphenated_of_unhyphenated? hread).1]

/-- An identity is read from exactly those texts that spell it. -/
theorem ofText?_eq_some_iff {text : String} {id : Uuid} :
    ofText? text = some id ↔ Spells text id := by
  simp only [ofText?, Option.bind_eq_some_iff, ofDigits?_eq_some_iff]
  constructor
  · rintro ⟨digits, hread, hsame⟩
    rw [Spells, ← hsame]
    exact lower_of_spelledDigits? hread
  · rintro ⟨form, hspelled⟩
    have hlength {digits : List Char} (hsame : lower digits = id.digits) : digits.length = 32 := by
      rw [← id.length_digits, ← hsame, lower, List.length_map]
    cases form with
    | bare => exact ⟨text.toList, if_pos (hlength hspelled), hspelled⟩
    | grouped =>
        obtain ⟨digits, htext, hsame⟩ := exists_hyphenated_of_lower id.length_digits hspelled
        rw [htext]
        exact ⟨digits, spelledDigits?_grouped (hlength hsame)
          fun _ hc => ne_of_lower_eq_digits hsame hc, hsame⟩
    | braced =>
        obtain ⟨c, rest, htext, hc, hrest⟩ := List.map_eq_cons_iff.mp hspelled
        obtain ⟨middle, last, rfl, hmiddle, hlast⟩ := List.map_eq_append_iff.mp hrest
        obtain ⟨d, nothing, rfl, hd, hnothing⟩ := List.map_eq_cons_iff.mp hlast
        obtain rfl := List.map_eq_nil_iff.mp hnothing
        obtain rfl := (toLower_eq_iff (.inr (by decide))).mp hc
        obtain rfl := (toLower_eq_iff (.inr (by decide))).mp hd
        obtain ⟨digits, rfl, hsame⟩ := exists_hyphenated_of_lower id.length_digits hmiddle
        rw [htext]
        exact ⟨digits, spelledDigits?_braced (hlength hsame)
          fun _ hc => ne_of_lower_eq_digits hsame hc, hsame⟩
    | urn =>
        obtain ⟨head, rest, htext, hhead, hrest⟩ := List.map_eq_append_iff.mp hspelled
        obtain ⟨digits, rfl, hsame⟩ := exists_hyphenated_of_lower id.length_digits hrest
        rw [htext]
        exact ⟨digits, spelledDigits?_urn hhead (hlength hsame)
          fun _ hc => ne_of_lower_eq_digits hsame hc, hsame⟩

theorem toLower_hexDigit {value : Nat} (hsmall : value < 16) :
    (hexDigit value).toLower = hexDigit value := by
  interval_cases value <;> rfl

@[simp] theorem lower_digits (id : Uuid) : lower id.digits = id.digits := by
  have hplain : ∀ c ∈ id.digits, c.toLower = c := by
    intro c hc
    rw [digits_eq] at hc
    obtain ⟨digit, hsmall, rfl⟩ := mem_hexDigits hc
    exact toLower_hexDigit hsmall
  rw [lower, List.map_congr_left hplain, List.map_id']

theorem hexNumber?_digits (id : Uuid) :
    hexNumber? id.digits = some (id.high.toNat * 2 ^ 64 + id.low.toNat) := by
  have hhigh := id.high.toNat_lt
  have hlow := id.low.toNat_lt
  rw [hexNumber?_eq_some_iff, length_digits, lower_digits]
  exact ⟨by omega, id.digits_eq⟩

/-- The text of an identity is one of its spellings. -/
theorem spells_text (id : Uuid) : Spells id.text id := by
  refine ⟨.grouped, ?_⟩
  rw [text, String.toList_ofList, lower_hyphenated, lower_digits]
  rfl

theorem Spells.unique {text : String} {id other : Uuid} (hspells : Spells text id)
    (hother : Spells text other) : id = other := by
  rw [← ofText?_eq_some_iff] at hspells hother
  exact Option.some.inj (hspells.symm.trans hother)

end Uuid

namespace Address

theorem ofText_eq_ok_iff {text : String} {address : Address} :
    ofText text = .ok address ↔ ∃ id, Uuid.Spells text id ∧ address = .ofUuid id := by
  unfold ofText
  cases hread : Uuid.ofText? text with
  | none =>
      constructor
      · intro hok
        contradiction
      · rintro ⟨id, hspells, -⟩
        rw [Uuid.ofText?_eq_some_iff.mpr hspells] at hread
        contradiction
  | some id =>
      have hspells := Uuid.ofText?_eq_some_iff.mp hread
      constructor
      · intro hok
        exact ⟨id, hspells, (Except.ok.inj hok).symm⟩
      · rintro ⟨other, hother, rfl⟩
        rw [Uuid.ofText?_eq_some_iff.mpr hother] at hread
        rw [Option.some.inj hread]

/-- Every spelling of an identity is read as the address with its two halves, and no other text
is read.  The address is printed as the lower-case digits of that identity in their groups, and
two texts are read as the same member exactly if they spell the same digits. -/
theorem text_is_faithful :
    (∀ id : Uuid, Uuid.hexNumber? id.digits = some (id.high.toNat * 2 ^ 64 + id.low.toNat) ∧
      id.digits.length = 32 ∧ Uuid.lower id.digits = id.digits ∧
        Uuid.Spells id.text id) ∧
    (∀ (text : String) (address : Address),
      ofText text = .ok address ↔ ∃ id, Uuid.Spells text id ∧ address = .ofUuid id) ∧
    (∀ (text : String) (address : Address) (id : Uuid),
      ofText text = .ok address → Uuid.Spells text id →
        address.display = String.ofList (Uuid.hyphenated id.digits)) ∧
    ∀ (text other : String) (address another : Address),
      ofText text = .ok address → ofText other = .ok another →
        (address.same another = true ↔ ∃ id, Uuid.Spells text id ∧ Uuid.Spells other id) := by
  refine ⟨fun id => ⟨id.hexNumber?_digits, id.length_digits, id.lower_digits, id.spells_text⟩,
    fun text address => ofText_eq_ok_iff, ?_, ?_⟩
  · intro text address id hread hspells
    obtain ⟨shown, hshown, rfl⟩ := ofText_eq_ok_iff.mp hread
    rw [hspells.unique hshown]
    rfl
  · intro text other address another hread hother
    obtain ⟨id, hspells, rfl⟩ := ofText_eq_ok_iff.mp hread
    obtain ⟨second, hsecond, rfl⟩ := ofText_eq_ok_iff.mp hother
    rw [same, decide_eq_true_eq]
    constructor
    · intro hsame
      exact ⟨id, hspells, (show id = second from hsame) ▸ hsecond⟩
    · rintro ⟨common, hfirst, hlast⟩
      exact (hspells.unique hfirst).trans (hlast.unique hsecond)

/-- Two texts in different forms and letter cases are read as the same member. -/
theorem text_is_faithful_mixed :
    ofText "urn:UUID:550E8400-e29b-41D4-a716-446655440000" =
        .ok (.ofUuid ⟨0x550e8400e29b41d4, 0xa716446655440000⟩) ∧
      ofText "550e8400E29B41d4A716446655440000" =
        .ok (.ofUuid ⟨0x550e8400e29b41d4, 0xa716446655440000⟩) ∧
      (ofUuid ⟨0x550e8400e29b41d4, 0xa716446655440000⟩).display =
        "550e8400-e29b-41d4-a716-446655440000" := by
  have hurn : Uuid.Spells "urn:UUID:550E8400-e29b-41D4-a716-446655440000"
      ⟨0x550e8400e29b41d4, 0xa716446655440000⟩ := ⟨.urn, by decide⟩
  have hbare : Uuid.Spells "550e8400E29B41d4A716446655440000"
      ⟨0x550e8400e29b41d4, 0xa716446655440000⟩ := ⟨.bare, by decide⟩
  have hread := (text_is_faithful.2.1 _ _).mpr ⟨_, hurn, rfl⟩
  refine ⟨hread, (text_is_faithful.2.1 _ _).mpr ⟨_, hbare, rfl⟩, ?_⟩
  rw [text_is_faithful.2.2.1 _ _ _ hread hurn]
  decide

end Address

end Muster
