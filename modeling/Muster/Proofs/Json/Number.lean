import Mathlib.Data.List.Basic
import Mathlib.Data.List.TakeDrop
import Mathlib.Tactic.IntervalCases
import Muster.Proofs.Json.Text

/-!
# Numbers are read as they are spelled

A number is spelled by digits, none of them a needless zero in front, and may have a sign, a
point and an exponent.  The reader takes all of them up to the first byte that cannot go on
a number.

An unsigned integer is written with its decimal digits, which is its only spelling here.
What they stand for is the count again as long as it fits 64 bits.
-/

namespace Muster.Json

open Text

/-! ## The digits of a count -/

theorem toNat_range_of_isDigit {c : Char} (hdigit : c.isDigit = true) :
    48 ≤ c.toNat ∧ c.toNat ≤ 57 := by
  simpa [Char.isDigit, UInt32.le_iff_toNat_le] using hdigit

def digitByte (c : Char) : UInt8 :=
  UInt8.ofNat c.toNat

theorem toNat_digitByte {c : Char} (hdigit : c.isDigit = true) :
    (digitByte c).toNat = c.toNat := by
  have hrange := toNat_range_of_isDigit hdigit
  rw [digitByte, UInt8.toNat_ofNat']
  omega

theorem letter_digitByte {c : Char} (hdigit : c.isDigit = true) : letter (digitByte c) = c := by
  rw [← Char.toNat_inj, toNat_letter, toNat_digitByte hdigit]

theorem isDigit_of_mem_toDigits {count : Nat} {c : Char} (hc : c ∈ Nat.toDigits 10 count) :
    c.isDigit = true :=
  Nat.isDigit_of_mem_toDigits (by decide) (by decide) hc

theorem spelled_decimal (count : Nat) :
    spelled (decimal count) = (Nat.toDigits 10 count).map digitByte := by
  rw [spelled, decimal, utf8, String.toList_ofList, List.map_eq_flatMap]
  apply List.flatMap_congr
  intro c hc
  have hrange := toNat_range_of_isDigit (isDigit_of_mem_toDigits hc)
  exact utf8EncodeChar_of_ascii (by omega)

theorem exists_spelled_decimal (count : Nat) :
    ∃ c bytes, c.isDigit = true ∧ spelled (decimal count) = digitByte c :: bytes := by
  obtain ⟨c, digits, hdigits⟩ := List.exists_cons_of_ne_nil (@Nat.toDigits_ne_nil count 10)
  refine ⟨c, digits.map digitByte, ?_, ?_⟩
  · apply isDigit_of_mem_toDigits
    rw [hdigits]
    exact List.mem_cons_self
  · rw [spelled_decimal, hdigits, List.map_cons]

/-- A positive count has no leading zero. -/
theorem head?_toDigits {count : Nat} (hpositive : 0 < count) :
    (Nat.toDigits 10 count).head? ≠ some '0' := by
  induction count using Nat.strongRecOn with
  | ind count ih =>
      by_cases hsmall : count < 10
      · rw [Nat.toDigits_of_lt_base hsmall]
        interval_cases count <;> decide
      · have hrest := ih (count / 10) (by omega) (by omega)
        obtain ⟨first, digits, hdigits⟩ :=
          List.exists_cons_of_ne_nil (@Nat.toDigits_ne_nil (count / 10) 10)
        rw [Nat.toDigits_of_base_le (by decide) (by omega), hdigits]
        rw [hdigits] at hrest
        exact hrest

/-! ## What digits stand for -/

theorem Numeral.le_foldl (digits : List Nat) (count : Nat) :
    count ≤ digits.foldl (fun count digit => 10 * count + digit) count := by
  induction digits generalizing count with
  | nil => exact Nat.le_refl count
  | cons digit digits ih =>
      refine Nat.le_trans ?_ (ih (10 * count + digit))
      omega

theorem Numeral.absorb_eq {digits : List Nat} {count : Nat}
    (hfits : digits.foldl (fun count digit => 10 * count + digit) count < countBound) :
    absorb count digits =
      (digits.foldl (fun count digit => 10 * count + digit) count, []) := by
  induction digits generalizing count with
  | nil => rfl
  | cons digit digits ih =>
      rw [List.foldl_cons] at hfits ⊢
      rw [absorb, if_pos (Nat.lt_of_le_of_lt (le_foldl digits _) hfits)]
      exact ih hfits

/-- The values of the digits of a count. -/
def digitsOf (count : Nat) : List Nat :=
  (Nat.toDigits 10 count).map fun c => c.toNat - '0'.toNat

theorem foldl_digitsOf (count : Nat) :
    (digitsOf count).foldl (fun count digit => 10 * count + digit) 0 = count := by
  rw [digitsOf, List.foldl_map, ← Nat.ofDigitChars_eq_foldl, Nat.ofDigitChars_ten_toDigits]

theorem not_leading_zero (count : Nat) :
    ¬((digitsOf count).head? = some 0 ∧ (digitsOf count).length ≠ 1) := by
  rintro ⟨hzero, hlong⟩
  rcases Nat.eq_zero_or_pos count with rfl | hpositive
  · exact hlong rfl
  · rw [digitsOf, List.head?_map, Option.map_eq_some_iff] at hzero
    obtain ⟨c, hc, hvalue⟩ := hzero
    have hrange := toNat_range_of_isDigit (isDigit_of_mem_toDigits (List.mem_of_mem_head? hc))
    have hcode : c.toNat = '0'.toNat := by
      change c.toNat - 48 = 0 at hvalue
      change c.toNat = 48
      omega
    rw [Char.toNat_inj] at hcode
    exact head?_toDigits hpositive (hcode ▸ hc)

theorem Numeral.number_digitsOf {count : Nat} (hfits : count < countBound) :
    Numeral.number false ⟨digitsOf count, none, none⟩ = .ok (.natural (UInt64.ofNat count)) := by
  have habsorb := @absorb_eq (digitsOf count) 0 (by rwa [foldl_digitsOf])
  rw [foldl_digitsOf] at habsorb
  simp [number, habsorb]

/-! ## Reading -/

/-- Whether a text goes on with something that is no part of a number. -/
def EndsNumber (rest : List UInt8) : Prop :=
  ∀ byte ∈ rest.head?, Reader.isDigit byte = false ∧
    letter byte ≠ '.' ∧ letter byte ≠ 'e' ∧ letter byte ≠ 'E'

namespace Reader

theorem reads_digits {bytes rest : List UInt8} (hdigits : ∀ byte ∈ bytes, isDigit byte = true)
    (hend : ∀ byte ∈ rest.head?, isDigit byte = false) :
    Reads digits (bytes ++ rest) (bytes.map digitValue) rest := by
  have htaken : (bytes ++ rest).takeWhile isDigit = bytes := by
    rw [List.takeWhile_append_of_pos hdigits]
    cases rest with
    | nil => simp
    | cons byte rest => simp [hend byte rfl]
  have hleft : (bytes ++ rest).dropWhile isDigit = rest := by
    rw [List.dropWhile_append_of_pos hdigits]
    cases rest with
    | nil => rfl
    | cons byte rest => simp [hend byte rfl]
  have hspan : (bytes ++ rest).span isDigit = (bytes, rest) := by
    rw [List.span_eq_takeWhile_dropWhile, htaken, hleft]
  change Except.ok (((bytes ++ rest).span isDigit).1.map digitValue,
    ((bytes ++ rest).span isDigit).2) = _
  rw [hspan]

theorem reads_someDigits {bytes rest : List UInt8} (hsome : bytes ≠ [])
    (hdigits : ∀ byte ∈ bytes, isDigit byte = true)
    (hend : ∀ byte ∈ rest.head?, isDigit byte = false) (atEnd : Fault) :
    Reads (someDigits atEnd) (bytes ++ rest) (bytes.map digitValue) rest := by
  refine .bind (reads_digits hdigits hend) ?_
  split
  next hnone => exact absurd (List.map_eq_nil_iff.mp hnone) hsome
  · exact .pure _ _

end Reader

/-! ## Spellings of a number -/

/-- Digits of which there is one. -/
def Digits (bytes : List UInt8) : Prop :=
  bytes ≠ [] ∧ ∀ byte ∈ bytes, Reader.isDigit byte = true

instance (bytes : List UInt8) : Decidable (Digits bytes) :=
  inferInstanceAs (Decidable (_ ∧ _))

theorem Digits.exists_cons {bytes : List UInt8} (hdigits : Digits bytes) :
    ∃ byte later, bytes = byte :: later ∧ Reader.isDigit byte = true := by
  obtain ⟨byte, later, rfl⟩ := List.exists_cons_of_ne_nil hdigits.1
  exact ⟨byte, later, rfl, hdigits.2 byte List.mem_cons_self⟩

/-- The bytes of an exponent. -/
structure ExponentFigures where
  mark : UInt8
  sign : Option UInt8
  size : List UInt8

namespace ExponentFigures

structure Proper (figures : ExponentFigures) : Prop where
  mark : letter figures.mark = 'e' ∨ letter figures.mark = 'E'
  sign : ∀ byte ∈ figures.sign, letter byte = '+' ∨ letter byte = '-'
  size : Digits figures.size

def bytes (figures : ExponentFigures) : List UInt8 :=
  figures.mark :: (figures.sign.toList ++ figures.size)

/-- What an exponent is worth.  Its size counts up to a bound. -/
def value (figures : ExponentFigures) : Int :=
  let size := min ((figures.size.map Reader.digitValue).foldl
    (fun size digit => 10 * size + digit) 0) Reader.exponentBound
  if figures.sign.map letter = some '-' then -(size : Int) else size

end ExponentFigures

/-- The bytes of a number. -/
structure Figures where
  negative : Bool
  whole : List UInt8
  fraction : Option (List UInt8)
  exponent : Option ExponentFigures

namespace Figures

structure Proper (figures : Figures) : Prop where
  whole : Digits figures.whole
  leading : figures.whole.head? = some 0x30 → figures.whole.length = 1
  fraction : ∀ digits ∈ figures.fraction, Digits digits
  exponent : ∀ exponent ∈ figures.exponent, exponent.Proper

def bytes (figures : Figures) : List UInt8 :=
  (if figures.negative then [0x2D] else []) ++ (figures.whole ++
    ((figures.fraction.elim [] fun digits => 0x2E :: digits) ++
      figures.exponent.elim [] ExponentFigures.bytes))

def numeral (figures : Figures) : Numeral where
  whole := figures.whole.map Reader.digitValue
  fraction := figures.fraction.map fun digits => digits.map Reader.digitValue
  exponent := figures.exponent.map ExponentFigures.value

end Figures

/-- Whether some bytes are a number with this value. -/
def SpellsNumber (value : Number) (bytes : List UInt8) : Prop :=
  ∃ figures : Figures, figures.Proper ∧ bytes = figures.bytes ∧
    figures.numeral.number figures.negative = .ok value

/-! ## The written count is one of them -/

theorem digits_spelled_decimal (count : Nat) : Digits (spelled (decimal count)) := by
  constructor
  · obtain ⟨c, bytes, _, hspelled⟩ := exists_spelled_decimal count
    rw [hspelled]
    exact List.cons_ne_nil _ _
  · intro byte hbyte
    rw [spelled_decimal] at hbyte
    obtain ⟨c, hc, rfl⟩ := List.mem_map.mp hbyte
    rw [Reader.isDigit, letter_digitByte (isDigit_of_mem_toDigits hc)]
    exact isDigit_of_mem_toDigits hc

theorem map_digitValue_spelled_decimal (count : Nat) :
    (spelled (decimal count)).map Reader.digitValue = digitsOf count := by
  rw [spelled_decimal, List.map_map, digitsOf]
  apply List.map_congr_left
  intro c hc
  rw [Function.comp_apply, Reader.digitValue, toNat_digitByte (isDigit_of_mem_toDigits hc)]

theorem spellsNumber_written (count : UInt64) :
    SpellsNumber (.natural count) (Number.natural count).written := by
  refine ⟨⟨false, spelled (decimal count.toNat), none, none⟩, ⟨?_, ?_, ?_, ?_⟩, ?_, ?_⟩
  · exact digits_spelled_decimal count.toNat
  · intro hzero
    by_contra hlong
    refine not_leading_zero count.toNat ⟨?_, ?_⟩
    · rw [← map_digitValue_spelled_decimal, List.head?_map, hzero]
      rfl
    · rwa [← map_digitValue_spelled_decimal, List.length_map]
  · exact fun _ hnone => by contradiction
  · exact fun _ hnone => by contradiction
  · exact (List.append_nil _).symm
  · have hnumber := Numeral.number_digitsOf count.toNat_lt
    rw [UInt64.ofNat_toNat] at hnumber
    rw [Figures.numeral, map_digitValue_spelled_decimal]
    exact hnumber

/-! ## Reading -/

namespace Reader

variable {rest : List UInt8}

/-- The size of an exponent is cut off at every digit, which is the same as at the end. -/
theorem foldl_min_eq (digits : List Nat) (size : Nat) :
    digits.foldl (fun size digit => min (10 * size + digit) exponentBound)
        (min size exponentBound) =
      min (digits.foldl (fun size digit => 10 * size + digit) size) exponentBound := by
  induction digits generalizing size with
  | nil => rfl
  | cons digit digits ih =>
      have hcut : min (10 * min size exponentBound + digit) exponentBound =
          min (10 * size + digit) exponentBound := by
        omega
      rw [List.foldl_cons, List.foldl_cons, hcut]
      exact ih (10 * size + digit)

theorem letter_ne_of_isDigit {byte : UInt8} (hdigit : isDigit byte = true) {c : Char}
    (hc : c.isDigit = false) : letter byte ≠ c := by
  rintro rfl
  rw [isDigit, hc] at hdigit
  contradiction

theorem head?_ne_of_endsNumber (hend : EndsNumber rest) :
    rest.head?.map letter ≠ some '.' ∧ rest.head?.map letter ≠ some 'e' ∧
      rest.head?.map letter ≠ some 'E' := by
  refine ⟨?_, ?_, ?_⟩ <;>
  · intro hletter
    obtain ⟨byte, hbyte, heq⟩ := Option.map_eq_some_iff.mp hletter
    have hends := hend byte hbyte
    simp [heq] at hends

theorem reads_exponent_none (hend : EndsNumber rest) (atEnd : Fault) :
    Reads (exponent atEnd) rest none rest := by
  have hplain := head?_ne_of_endsNumber hend
  refine .bind (reads_peek rest) ?_
  split
  next heq => exact absurd heq hplain.2.1
  next heq => exact absurd heq hplain.2.2
  · exact .pure none rest

/-- The sign and the size of an exponent. -/
theorem reads_exponent_size {figures : ExponentFigures} (hproper : figures.Proper)
    (hend : EndsNumber rest) (atEnd : Fault) :
    Reads (do
      let sign ← peek
      if sign = some '+' ∨ sign = some '-' then skip
      let size := (← someDigits atEnd).foldl
        (fun size digit => min (10 * size + digit) exponentBound) 0
      return some (if sign = some '-' then -(size : Int) else size))
      (figures.sign.toList ++ (figures.size ++ rest)) (some figures.value) rest := by
  have hsize := reads_someDigits hproper.size.1 hproper.size.2
    (fun byte hbyte => (hend byte hbyte).1) atEnd
  have hfold := foldl_min_eq (figures.size.map digitValue) 0
  refine .bind (reads_peek _) ?_
  rw [ExponentFigures.value]
  cases hsign : figures.sign with
  | none =>
      obtain ⟨byte, later, hbytes, hdigit⟩ := hproper.size.exists_cons
      have hplus := letter_ne_of_isDigit hdigit (c := '+') rfl
      have hminus := letter_ne_of_isDigit hdigit (c := '-') rfl
      have hhead : ((none : Option UInt8).toList ++ (figures.size ++ rest)).head?.map letter =
          some (letter byte) := by
        rw [hbytes]
        rfl
      rw [hhead, if_neg (by simp [hplus, hminus])]
      refine .bind hsize ?_
      rw [← hfold]
      simp only [Option.some.injEq, hminus, Option.map_none, reduceCtorEq, if_false]
      exact .pure _ rest
  | some byte =>
      have hletter := hproper.sign byte hsign
      have hhead : ((some byte).toList ++ (figures.size ++ rest)).head?.map letter =
          some (letter byte) := rfl
      rw [hhead, if_pos (by simpa using hletter)]
      refine .bind (reads_skip _ _) (.bind hsize ?_)
      rw [← hfold]
      exact .pure _ rest

theorem reads_exponent {figures : ExponentFigures} (hproper : figures.Proper)
    (hend : EndsNumber rest) (atEnd : Fault) :
    Reads (exponent atEnd) (figures.bytes ++ rest) (some figures.value) rest := by
  have hsize := reads_exponent_size hproper hend atEnd
  rw [← List.append_assoc] at hsize
  have hmark : (figures.bytes ++ rest).head?.map letter = some (letter figures.mark) := rfl
  refine .bind (reads_peek _) ?_
  rw [hmark]
  rcases hproper.mark with hsmall | hlarge
  · rw [hsmall]
    exact .bind (reads_skip _ _) hsize
  · rw [hlarge]
    exact .bind (reads_skip _ _) hsize

theorem reads_exponent? {exponent? : Option ExponentFigures}
    (hproper : ∀ figures ∈ exponent?, figures.Proper) (hend : EndsNumber rest)
    (atEnd : Fault) :
    Reads (exponent atEnd) (exponent?.elim [] ExponentFigures.bytes ++ rest)
      (exponent?.map ExponentFigures.value) rest := by
  cases exponent? with
  | none => exact reads_exponent_none hend atEnd
  | some figures => exact reads_exponent (hproper figures rfl) hend atEnd

/-- Behind the digits of a number comes neither another digit nor a second point. -/
theorem head?_exponent? {exponent? : Option ExponentFigures}
    (hproper : ∀ figures ∈ exponent?, figures.Proper) (hend : EndsNumber rest) :
    ∀ byte ∈ (exponent?.elim [] ExponentFigures.bytes ++ rest).head?,
      isDigit byte = false ∧ letter byte ≠ '.' := by
  cases exponent? with
  | none => exact fun byte hbyte => ⟨(hend byte hbyte).1, (hend byte hbyte).2.1⟩
  | some figures =>
      rintro byte ⟨⟩
      rcases (hproper figures rfl).mark with hmark | hmark <;>
      · rw [isDigit, hmark]
        decide

theorem not_leading_zero_of_proper {figures : Figures} (hproper : figures.Proper) :
    ¬((figures.whole.map digitValue).head? = some 0 ∧
      (figures.whole.map digitValue).length ≠ 1) := by
  rintro ⟨hzero, hlong⟩
  obtain ⟨byte, later, hbytes, hdigit⟩ := hproper.whole.exists_cons
  rw [hbytes, List.map_cons, List.head?_cons, Option.some.injEq] at hzero
  have hrange := toNat_range_of_isDigit hdigit
  rw [toNat_letter] at hrange
  have hbyte : byte = 0x30 := by
    rw [← UInt8.toNat_inj]
    change byte.toNat - 48 = 0 at hzero
    change byte.toNat = 48
    omega
  rw [List.length_map] at hlong
  refine hlong (hproper.leading ?_)
  rw [hbytes, hbyte]
  rfl

theorem reads_numeral {figures : Figures} (hproper : figures.Proper) (hend : EndsNumber rest)
    (atEnd : Fault) :
    Reads (numeral atEnd) (figures.whole ++
        ((figures.fraction.elim [] fun digits => 0x2E :: digits) ++
          (figures.exponent.elim [] ExponentFigures.bytes ++ rest)))
      figures.numeral rest := by
  have hexponent := reads_exponent? hproper.exponent hend atEnd
  have hbehind := head?_exponent? hproper.exponent hend
  have hleading := not_leading_zero_of_proper hproper
  unfold Figures.numeral
  cases hfraction : figures.fraction with
  | none =>
      have hpoint : (figures.exponent.elim [] ExponentFigures.bytes ++ rest).head?.map letter ≠
          some '.' := by
        intro hletter
        obtain ⟨byte, hbyte, heq⟩ := Option.map_eq_some_iff.mp hletter
        exact (hbehind byte hbyte).2 heq
      refine .bind (reads_someDigits hproper.whole.1 hproper.whole.2
        (fun byte hbyte => (hbehind byte hbyte).1) atEnd) ?_
      rw [if_neg hleading]
      refine .bind (reads_peek _) ?_
      rw [if_neg hpoint]
      exact .bind (.pure none _) (.bind hexponent (.pure _ rest))
  | some digits =>
      have hdigits := hproper.fraction digits hfraction
      have hfound := reads_someDigits hdigits.1 hdigits.2
        (fun byte hbyte => (hbehind byte hbyte).1) atEnd
      refine .bind (reads_someDigits hproper.whole.1 hproper.whole.2 ?_ atEnd) ?_
      · rintro byte ⟨⟩
        decide
      rw [if_neg hleading]
      have hpoint : (((some digits).elim [] fun digits => 0x2E :: digits) ++
          (figures.exponent.elim [] ExponentFigures.bytes ++ rest)).head?.map letter =
          some '.' := rfl
      refine .bind (reads_peek _) ?_
      rw [if_pos hpoint]
      refine .bind (reads_skip _ _) (.bind (hfound.map some) ?_)
      exact .bind hexponent (.pure _ rest)

theorem reads_number {value : Number} {bytes : List UInt8} (hspells : SpellsNumber value bytes)
    (hend : EndsNumber rest) : Reads number (bytes ++ rest) value rest := by
  obtain ⟨figures, hproper, rfl, hvalue⟩ := hspells
  have hnumeral := reads_numeral hproper hend .endInValue
  unfold Figures.bytes
  rw [List.append_assoc, List.append_assoc, List.append_assoc]
  refine .bind (reads_peek _) ?_
  cases hsign : figures.negative with
  | true =>
      rw [hsign] at hvalue
      exact .bind (reads_skip _ _) (.bind hnumeral (.lift hvalue rest))
  | false =>
      rw [hsign] at hvalue
      obtain ⟨byte, later, hbytes, hdigit⟩ := hproper.whole.exists_cons
      have hminus : some (letter byte) ≠ some '-' := by
        simpa using letter_ne_of_isDigit hdigit (c := '-') rfl
      have hhead : ((if false = true then [0x2D] else []) ++ (figures.whole ++
          ((figures.fraction.elim [] fun digits => 0x2E :: digits) ++
            (figures.exponent.elim [] ExponentFigures.bytes ++ rest)))).head?.map letter =
          some (letter byte) := by
        rw [hbytes]
        rfl
      simp only [hhead, hminus, decide_false]
      exact .bind hnumeral (.lift hvalue rest)

/-- A number starts with a sign or a digit. -/
theorem exists_cons_of_spellsNumber {value : Number} {bytes : List UInt8}
    (hspells : SpellsNumber value bytes) :
    ∃ byte later, bytes = byte :: later ∧ (letter byte = '-' ∨ isDigit byte = true) := by
  obtain ⟨figures, hproper, rfl, _⟩ := hspells
  unfold Figures.bytes
  cases figures.negative with
  | true => exact ⟨0x2D, _, rfl, .inl rfl⟩
  | false =>
      obtain ⟨byte, later, hbytes, hdigit⟩ := hproper.whole.exists_cons
      rw [hbytes]
      exact ⟨byte, _, rfl, .inr hdigit⟩

end Reader

end Muster.Json
