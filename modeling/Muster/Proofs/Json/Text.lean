import Mathlib.Tactic.IntervalCases
import Muster.Proofs.Json.Reading

/-!
# Strings are read as they are spelled

A character may be spelled by its UTF-8 bytes or by an escape, and must be escaped if it is
a quote, a backslash or a control character.  Every byte of a character that is no control
character is passed on by the machine: those of longer characters are all above the
ASCII range.  So the machine gathers the UTF-8 bytes of the string, character by
character, and stops at the closing quote.  The writing of a string is one of its
spellings.
-/

namespace Muster

open Json Text

theorem Text.ofUtf8?_utf8 (s : String) : ofUtf8? (utf8 s) = some s := by
  have hbytes : (utf8 s).toByteArray = s.toByteArray := String.utf8Encode_toList
  rw [ofUtf8?, String.fromUTF8?, hbytes, dif_pos s.isValidUTF8]
  rfl

namespace Json

theorem utf8EncodeChar_of_ascii {c : Char} (hascii : c.toNat < 0x80) :
    String.utf8EncodeChar c = [UInt8.ofNat c.toNat] := by
  change c.val.toNat < 0x80 at hascii
  simp only [String.utf8EncodeChar]
  rw [if_pos (by omega)]
  rfl

theorem le_toNat_of_mem_utf8EncodeChar {c : Char} (hlarge : 0x80 ≤ c.toNat) {byte : UInt8}
    (hbyte : byte ∈ String.utf8EncodeChar c) : 0x80 ≤ byte.toNat := by
  change 0x80 ≤ c.val.toNat at hlarge
  simp only [String.utf8EncodeChar] at hbyte
  rw [if_neg (by omega)] at hbyte
  have htop : ∀ code : Nat, 0x80 ≤ code % 0x100 → 0x80 ≤ (UInt8.ofNat code).toNat := by
    intro code hcode
    rwa [UInt8.toNat_ofNat']
  split at hbyte
  · simp only [List.mem_cons, List.not_mem_nil, or_false] at hbyte
    rcases hbyte with rfl | rfl <;> exact htop _ (by omega)
  split at hbyte
  · simp only [List.mem_cons, List.not_mem_nil, or_false] at hbyte
    rcases hbyte with rfl | rfl | rfl <;> exact htop _ (by omega)
  · simp only [List.mem_cons, List.not_mem_nil, or_false] at hbyte
    rcases hbyte with rfl | rfl | rfl | rfl <;> exact htop _ (by omega)

theorem toNat_letter (byte : UInt8) : (letter byte).toNat = byte.toNat :=
  UInt8.toNat_toUInt32 byte

theorem letter_ne {byte : UInt8} {c : Char} (hne : byte.toNat ≠ c.toNat) : letter byte ≠ c := by
  intro heq
  rw [← heq, toNat_letter] at hne
  exact hne rfl

namespace Inside

/-- Whether a byte stands for itself inside a string. -/
structure IsPlain (byte : UInt8) : Prop where
  quote : byte.toNat ≠ 0x22
  backslash : byte.toNat ≠ 0x5C
  visible : 0x20 ≤ byte.toNat

theorem runFrom_plain (strict : Bool) {bytes : List UInt8}
    (hplain : ∀ byte ∈ bytes, IsPlain byte) (gathered rest : List UInt8) :
    runFrom strict .plain gathered (bytes ++ rest) =
      runFrom strict .plain (bytes.reverse ++ gathered) rest := by
  induction bytes generalizing gathered with
  | nil => rfl
  | cons byte bytes ih =>
      have hbyte := hplain byte List.mem_cons_self
      have hquote : letter byte ≠ '"' := letter_ne hbyte.quote
      have hbackslash : letter byte ≠ '\\' := letter_ne hbyte.backslash
      have hvisible : ¬byte < 0x20 := by
        have := hbyte.visible
        rw [UInt8.lt_iff_toNat_lt]
        simpa using this
      have hturn : turn strict .plain byte = .ok (.go .plain [byte]) := by
        simp only [turn, hquote, hbackslash, hvisible, if_false]
      rw [List.cons_append, runFrom, hturn, List.reverse_cons, List.append_assoc]
      exact ih (fun other hother => hplain other (List.mem_cons_of_mem _ hother)) _

theorem isPlain_of_le {byte : UInt8} (hlarge : 0x80 ≤ byte.toNat) : IsPlain byte :=
  ⟨by omega, by omega, by omega⟩

theorem isPlain_of_mem_utf8EncodeChar {c : Char} (hquote : c ≠ '"') (hbackslash : c ≠ '\\')
    (hvisible : 0x20 ≤ c.toNat) {byte : UInt8} (hbyte : byte ∈ String.utf8EncodeChar c) :
    IsPlain byte := by
  by_cases hascii : c.toNat < 0x80
  · rw [utf8EncodeChar_of_ascii hascii] at hbyte
    have hcode : byte.toNat = c.toNat := by
      rw [List.mem_singleton.mp hbyte, UInt8.toNat_ofNat']
      omega
    refine ⟨?_, ?_, ?_⟩
    · rw [hcode]
      exact fun heq => hquote (Char.toNat_inj.mp heq)
    · rw [hcode]
      exact fun heq => hbackslash (Char.toNat_inj.mp heq)
    · rwa [hcode]
  · exact isPlain_of_le (le_toNat_of_mem_utf8EncodeChar (by omega) hbyte)

/-- Four hexadecimal digits are worth what the machine makes of them. -/
theorem runFrom_code {strict : Bool} {lead : Option Nat} {digits : List UInt8} {state : Inside}
    {bytes : List UInt8} (hlength : digits.length = 4)
    (hturn : afterCode strict lead digits.reverse = .ok (.go state bytes))
    (gathered rest : List UInt8) :
    runFrom strict (.code lead []) gathered (digits ++ rest) =
      runFrom strict state (bytes.reverse ++ gathered) rest := by
  match digits, hlength with
  | [first, second, third, fourth], _ =>
      change runFrom strict (.code lead [third, second, first]) gathered (fourth :: rest) = _
      have hlast : turn strict (.code lead [third, second, first]) fourth =
          .ok (.go state bytes) := hturn
      rw [runFrom, hlast]

end Inside

/-! ## Spellings of a text -/

open Inside

/-- The ways to write a character inside a string: its UTF-8 bytes, a short escape, its code
point, or the code points of two surrogates. -/
inductive SpellsChar : Char → List UInt8 → Prop
  | raw {c : Char} (hquote : c ≠ '"') (hbackslash : c ≠ '\\') (hvisible : 0x20 ≤ c.toNat) :
      SpellsChar c (String.utf8EncodeChar c)
  | short {c : Char} {byte value : UInt8} (hescape : shortEscape? (letter byte) = some value)
      (hvalue : letter value = c) : SpellsChar c [0x5C, byte]
  | code {c : Char} {digits : List UInt8} (hlength : digits.length = 4)
      (hnumber : hexNumber? digits.reverse = some c.toNat) :
      SpellsChar c (0x5C :: 0x75 :: digits)
  | pair {c : Char} {high low : List UInt8} {lead trail : Nat} (hhigh : high.length = 4)
      (hlow : low.length = 4) (hlead : hexNumber? high.reverse = some lead)
      (htrail : hexNumber? low.reverse = some trail) (hisLead : isLead lead = true)
      (hisTrail : isTrail trail = true) (hpaired : paired lead trail = c.toNat) :
      SpellsChar c (0x5C :: 0x75 :: (high ++ 0x5C :: 0x75 :: low))

/-- Whether some bytes are a string with these characters, each of them spelled in one of its
ways. -/
def SpellsText (s : String) (bytes : List UInt8) : Prop :=
  ∃ parts : List (Char × List UInt8), parts.map Prod.fst = s.toList ∧
    (∀ part ∈ parts, SpellsChar part.1 part.2) ∧
    bytes = 0x22 :: (parts.flatMap Prod.snd ++ [0x22])

theorem utf8EncodeChar_of_shortEscape? {c : Char} {value : UInt8}
    (hescape : shortEscape? c = some value) :
    String.utf8EncodeChar (letter value) = [value] := by
  unfold shortEscape? at hescape
  split at hescape
  case h_9 => contradiction
  all_goals
    rw [← Option.some.inj hescape]
    rfl

theorem not_surrogate (c : Char) : isTrail c.toNat = false ∧ isLead c.toNat = false := by
  have hvalid : c.toNat < 0xD800 ∨ 0xDFFF < c.toNat ∧ c.toNat < 0x110000 := c.valid
  unfold isTrail isLead
  rw [decide_eq_false_iff_not, decide_eq_false_iff_not]
  omega

theorem codePoint_toNat (c : Char) : codePoint c.toNat = String.utf8EncodeChar c := by
  rw [codePoint, Char.ofNat_toNat]

theorem runFrom_spelled {c : Char} {bytes : List UInt8} (hspells : SpellsChar c bytes)
    (gathered rest : List UInt8) :
    runFrom true .plain gathered (bytes ++ rest) =
      runFrom true .plain ((String.utf8EncodeChar c).reverse ++ gathered) rest := by
  cases hspells with
  | raw hquote hbackslash hvisible =>
      exact runFrom_plain true
        (fun _ hbyte => isPlain_of_mem_utf8EncodeChar hquote hbackslash hvisible hbyte) _ _
  | @short byte value hescape hvalue =>
      subst hvalue
      have hno : letter byte ≠ 'u' := by
        intro heq
        rw [heq] at hescape
        contradiction
      have hturn : turn true .escape byte = .ok (.go .plain [value]) := by
        simp only [turn, if_neg hno, hescape]
      rw [utf8EncodeChar_of_shortEscape? hescape]
      change runFrom true .escape gathered (byte :: rest) = _
      rw [runFrom, hturn]
  | @code digits hlength hnumber =>
      have hturn : afterCode true none digits.reverse =
          .ok (.go .plain (String.utf8EncodeChar c)) := by
        have hsurrogate := not_surrogate c
        simp [afterCode, hnumber, hsurrogate.1, hsurrogate.2, codePoint_toNat]
      change runFrom true (.code none []) gathered (digits ++ rest) = _
      exact runFrom_code hlength hturn gathered rest
  | @pair high low lead trail hhigh hlow hlead htrail hisLead hisTrail hpaired =>
      have hfirst : afterCode true none high.reverse = .ok (.go (.afterLead lead) []) := by
        have hbefore : isTrail lead = false := by
          unfold isLead at hisLead
          unfold isTrail
          rw [decide_eq_true_eq] at hisLead
          rw [decide_eq_false_iff_not]
          omega
        simp [afterCode, hlead, hbefore, hisLead]
      have hsecond : afterCode true (some lead) low.reverse =
          .ok (.go .plain (String.utf8EncodeChar c)) := by
        simp [afterCode, htrail, hisTrail, hpaired, codePoint_toNat]
      change runFrom true (.code none []) gathered
        (high ++ 0x5C :: 0x75 :: low ++ rest) = _
      rw [List.append_assoc, runFrom_code hhigh hfirst]
      change runFrom true (.code (some lead) []) gathered (low ++ rest) = _
      exact runFrom_code hlow hsecond gathered rest

theorem runFrom_parts {parts : List (Char × List UInt8)}
    (hparts : ∀ part ∈ parts, SpellsChar part.1 part.2) (gathered rest : List UInt8) :
    runFrom true .plain gathered (parts.flatMap Prod.snd ++ 0x22 :: rest) =
      .ok (gathered.reverse ++ (parts.map Prod.fst).flatMap String.utf8EncodeChar, rest) := by
  induction parts generalizing gathered with
  | nil =>
      rw [List.flatMap_nil, List.map_nil, List.flatMap_nil, List.append_nil]
      rfl
  | cons part parts ih =>
      rw [List.forall_mem_cons] at hparts
      rw [List.flatMap_cons, List.append_assoc, runFrom_spelled hparts.1, ih hparts.2,
        List.map_cons, List.flatMap_cons, List.reverse_append, List.reverse_reverse,
        List.append_assoc]

/-! ## The written text is one of them -/

theorem spellsChar_control {c : Char} (hcontrol : c.toNat < 0x20) :
    SpellsChar c (writtenChar c) := by
  have hchar := Char.ofNat_toNat c
  generalize c.toNat = code at hcontrol hchar
  subst hchar
  interval_cases code
  all_goals
    first
    | exact .code rfl rfl
    | exact .short rfl rfl

theorem spellsChar_written (c : Char) : SpellsChar c (writtenChar c) := by
  by_cases hcontrol : c.toNat < 0x20
  · exact spellsChar_control hcontrol
  by_cases hquote : c = '"'
  · subst hquote
    exact .short rfl rfl
  by_cases hbackslash : c = '\\'
  · subst hbackslash
    exact .short rfl rfl
  have hself : writtenChar c = String.utf8EncodeChar c := by
    unfold writtenChar
    split
    case h_8 => rw [if_neg (by omega), if_neg hcontrol]
    case h_1 | h_2 => contradiction
    all_goals exact absurd (by decide) hcontrol
  rw [hself]
  exact .raw hquote hbackslash (by omega)

theorem spellsText_written (s : String) : SpellsText s (writtenText s) := by
  refine ⟨s.toList.map fun c => (c, writtenChar c), ?_, ?_, ?_⟩
  · rw [List.map_map]
    exact List.map_id _
  · intro part hpart
    obtain ⟨c, _, rfl⟩ := List.mem_map.mp hpart
    exact spellsChar_written c
  · rw [List.flatMap_map]
    rfl

/-! ## Reading -/

namespace Reader

variable {s : String} {bytes : List UInt8}

theorem reads_textBody {parts : List (Char × List UInt8)}
    (hparts : ∀ part ∈ parts, SpellsChar part.1 part.2)
    (hchars : parts.map Prod.fst = s.toList) (rest : List UInt8) :
    Reads textBody (parts.flatMap Prod.snd ++ 0x22 :: rest) s rest := by
  have hbody := runFrom_parts hparts [] rest
  have hutf8 :
      ofUtf8? ([].reverse ++ (parts.map Prod.fst).flatMap String.utf8EncodeChar) = some s := by
    rw [hchars]
    exact ofUtf8?_utf8 s
  simp only [Reads, textBody, hbody, bind, Except.bind, hutf8]
  rfl

theorem reads_text (hspells : SpellsText s bytes) (rest : List UInt8) :
    Reads text (bytes ++ rest) s rest := by
  obtain ⟨parts, hchars, hparts, rfl⟩ := hspells
  rw [List.cons_append, List.append_assoc]
  exact .bind (reads_skip _ _) (reads_textBody hparts hchars rest)

end Reader

end Json

end Muster
