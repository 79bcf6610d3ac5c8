import Muster.Json.Document

/-!
# What a reader reads

A reader that succeeds yields a value and leaves the bytes behind it.  `Reads` says
so for one input, and is put together like the readers are: what the first step
leaves is what the next one reads.  Nothing is said about faults.

Most readers pass over blanks first, so that whatever they read they also read behind
blanks.

A loop reads what its turns read, one after the other.  Its fuel is the length of the
input, which is enough because every turn but the last takes at least one byte.
-/

namespace Muster.Json

/-- Whether a reader yields a value from some input and leaves the rest. -/
def Reads {α : Type} (reader : Reader α) (input : List UInt8) (value : α)
    (rest : List UInt8) : Prop :=
  reader input = .ok (value, rest)

namespace Reads

variable {α β : Type} {input middle rest : List UInt8}

theorem pure (value : α) (input : List UInt8) :
    Reads (Pure.pure value) input value input :=
  rfl

theorem bind {reader : Reader α} {next : α → Reader β} {value : α} {result : β}
    (hfirst : Reads reader input value middle)
    (hnext : Reads (next value) middle result rest) :
    Reads (reader >>= next) input result rest := by
  change (reader input >>= fun pair => next pair.1 pair.2) = .ok (result, rest)
  rw [hfirst]
  exact hnext

theorem map {reader : Reader α} {value : α} (hreads : Reads reader input value rest)
    (f : α → β) : Reads (f <$> reader) input (f value) rest := by
  change (reader input >>= fun pair => Pure.pure (f pair.1, pair.2)) = .ok (f value, rest)
  rw [hreads]
  rfl

theorem lift {value : α} {result : Except Fault α} (hresult : result = .ok value)
    (input : List UInt8) : Reads (liftM result) input value input := by
  rw [hresult]
  rfl

end Reads

/-! ## Blanks -/

/-- Whether there is nothing but blanks. -/
def Blank (bytes : List UInt8) : Prop :=
  bytes.all Reader.isBlank = true

instance (bytes : List UInt8) : Decidable (Blank bytes) :=
  inferInstanceAs (Decidable (_ = true))

theorem blank_nil : Blank [] :=
  rfl

theorem Blank.dropWhile_append {blanks : List UInt8} (hblank : Blank blanks)
    (input : List UInt8) :
    (blanks ++ input).dropWhile Reader.isBlank = input.dropWhile Reader.isBlank :=
  List.dropWhile_append_of_pos fun _ hbyte => List.all_eq_true.mp hblank _ hbyte

theorem Reads.run {α : Type} {reader : Reader α} {input rest : List UInt8} {value : α}
    (hreads : Reads reader input value rest) (hblank : Blank rest) :
    reader.run input = .ok value := by
  change (reader input >>= fun pair =>
    if pair.2.all Reader.isBlank then Pure.pure pair.1 else throw .trailingText) = .ok value
  rw [hreads]
  exact if_pos hblank

/-- Whether a reader makes nothing of blanks in front. -/
def Passes {α : Type} (reader : Reader α) : Prop :=
  ∀ ⦃blanks : List UInt8⦄, Blank blanks → ∀ input, reader (blanks ++ input) = reader input

namespace Passes

variable {α β : Type} {reader : Reader α}

theorem bind (hpasses : Passes reader) (next : α → Reader β) : Passes (reader >>= next) := by
  intro blanks hblank input
  change (reader (blanks ++ input) >>= fun pair => next pair.1 pair.2) = _
  rw [hpasses hblank]
  rfl

theorem reads (hpasses : Passes reader) {blanks input rest : List UInt8} {value : α}
    (hblank : Blank blanks) (hreads : Reads reader input value rest) :
    Reads reader (blanks ++ input) value rest :=
  (hpasses hblank input).trans hreads

end Passes

namespace Reader

variable {α σ : Type} {byte : UInt8} {input rest : List UInt8}

theorem reads_peek (input : List UInt8) : Reads peek input (input.head?.map letter) input :=
  rfl

theorem reads_skip (byte : UInt8) (rest : List UInt8) : Reads skip (byte :: rest) () rest :=
  rfl

theorem reads_next (atEnd : Fault) (byte : UInt8) (rest : List UInt8) :
    Reads (next atEnd) (byte :: rest) byte rest :=
  rfl

theorem reads_peekSolid (hsolid : isBlank byte = false) (rest : List UInt8) :
    Reads peekSolid (byte :: rest) (some (letter byte)) (byte :: rest) := by
  have hkept : (byte :: rest).dropWhile isBlank = byte :: rest := by
    rw [List.dropWhile_cons_of_neg (by simp [hsolid])]
  change Except.ok (((byte :: rest).dropWhile isBlank).head?.map letter,
    (byte :: rest).dropWhile isBlank) = _
  rw [hkept]
  rfl

theorem passes_peekSolid : Passes peekSolid := by
  intro blanks hblank input
  change Except.ok (((blanks ++ input).dropWhile isBlank).head?.map letter,
    (blanks ++ input).dropWhile isBlank) = _
  rw [hblank.dropWhile_append]
  rfl

theorem reads_word (bytes rest : List UInt8) :
    Reads (word (bytes.map letter)) (bytes ++ rest) () rest := by
  induction bytes with
  | nil => exact .pure () rest
  | cons byte bytes ih =>
      refine .bind (reads_next .endInValue byte _) ?_
      rw [if_pos rfl]
      exact ih

/-! ## Loops -/

/-- The turns of a loop: each but the last goes on from a new state with less input. -/
inductive Turns (step : σ → Reader (Option σ)) : List UInt8 → σ → σ → List UInt8 → Prop
  | stop {input rest : List UInt8} {state : σ}
      (hstop : Reads (step state) input none rest) : Turns step input state state rest
  | turn {input middle rest : List UInt8} {state next last : σ}
      (hturn : Reads (step state) input (some next) middle)
      (hshorter : middle.length < input.length)
      (hlater : Turns step middle next last rest) : Turns step input state last rest

theorem Turns.repeatUpTo {step : σ → Reader (Option σ)} {state last : σ}
    (hturns : Turns step input state last rest) (atEnd : Fault) {fuel : List UInt8}
    (henough : input.length < fuel.length) : Reads (repeatUpTo step atEnd fuel state) input last rest := by
  induction hturns generalizing fuel with
  | stop hstop =>
      obtain ⟨byte, fuel, rfl⟩ := List.exists_cons_of_length_pos (Nat.zero_lt_of_lt henough)
      exact .bind hstop (.pure _ _)
  | turn hturn hshorter _ ih =>
      obtain ⟨byte, fuel, rfl⟩ := List.exists_cons_of_length_pos (Nat.zero_lt_of_lt henough)
      rw [List.length_cons] at henough
      exact .bind hturn (ih (by omega))

theorem Turns.iterate {step : σ → Reader (Option σ)} {state last : σ}
    (hturns : Turns step input state last rest) (atEnd : Fault) :
    Reads (iterate step atEnd state) input last rest :=
  .bind (show Reads get input input input from rfl) (hturns.repeatUpTo atEnd (Nat.lt_succ_self _))

theorem Turns.behind {step : σ → Reader (Option σ)} {state last : σ} {blanks : List UInt8}
    (hpasses : Passes (step state)) (hblank : Blank blanks)
    (hturns : Turns step input state last rest) :
    Turns step (blanks ++ input) state last rest := by
  cases hturns with
  | stop hstop => exact .stop (hpasses.reads hblank hstop)
  | turn hturn hshorter hlater =>
      refine .turn (hpasses.reads hblank hturn) ?_ hlater
      rw [List.length_append]
      omega

/-! ## Between items and members -/

theorem passes_moreItems (isFirst : Bool) : Passes (moreItems isFirst) :=
  passes_peekSolid.bind _

theorem passes_moreMembers (isFirst : Bool) : Passes (moreMembers isFirst) :=
  passes_peekSolid.bind _

theorem passes_colon : Passes colon :=
  passes_peekSolid.bind _

theorem reads_moreItems_end (isFirst : Bool) (rest : List UInt8) :
    Reads (moreItems isFirst) (0x5D :: rest) false (0x5D :: rest) :=
  .bind (reads_peekSolid rfl rest) (.pure false _)

/-- Whether a text starts with something that is no blank and closes no list. -/
def StartsItem (text : List UInt8) : Prop :=
  ∃ byte bytes, text = byte :: bytes ∧ isBlank byte = false ∧ letter byte ≠ ']'

theorem reads_moreItems_first {text : List UInt8} (hstart : StartsItem text)
    (rest : List UInt8) : Reads (moreItems true) (text ++ rest) true (text ++ rest) := by
  obtain ⟨byte, bytes, rfl, hsolid, hitem⟩ := hstart
  refine .bind (reads_peekSolid hsolid _) ?_
  split
  · contradiction
  next heq => exact absurd (Option.some.inj heq) hitem
  · exact .pure true _

theorem reads_moreItems {blanks text : List UInt8} (hblank : Blank blanks)
    (hstart : StartsItem text) (rest : List UInt8) :
    Reads (moreItems false) (0x2C :: (blanks ++ (text ++ rest))) true (text ++ rest) := by
  obtain ⟨byte, bytes, rfl, hsolid, hitem⟩ := hstart
  refine .bind (reads_peekSolid rfl _) (.bind (reads_skip _ _) ?_)
  refine .bind (passes_peekSolid.reads hblank (reads_peekSolid hsolid _)) ?_
  split
  · contradiction
  next heq => exact absurd (Option.some.inj heq) hitem
  · exact .pure true _

theorem reads_closeList (rest : List UInt8) : Reads closeList (0x5D :: rest) () rest :=
  .bind (reads_peekSolid rfl rest) (reads_skip _ _)

theorem reads_moreMembers_end (isFirst : Bool) (rest : List UInt8) :
    Reads (moreMembers isFirst) (0x7D :: rest) false (0x7D :: rest) :=
  .bind (reads_peekSolid rfl rest) (.pure false _)

theorem reads_moreMembers_first (rest : List UInt8) :
    Reads (moreMembers true) (0x22 :: rest) true (0x22 :: rest) :=
  .bind (reads_peekSolid rfl rest) (.pure true _)

theorem reads_moreMembers {blanks : List UInt8} (hblank : Blank blanks) (rest : List UInt8) :
    Reads (moreMembers false) (0x2C :: (blanks ++ 0x22 :: rest)) true (0x22 :: rest) :=
  .bind (reads_peekSolid rfl _) (.bind (reads_skip _ _)
    (.bind (passes_peekSolid.reads hblank (reads_peekSolid rfl rest)) (.pure true _)))

theorem reads_closeObject (rest : List UInt8) : Reads closeObject (0x7D :: rest) () rest :=
  .bind (reads_peekSolid rfl rest) (reads_skip _ _)

theorem reads_colon (rest : List UInt8) : Reads colon (0x3A :: rest) () rest :=
  .bind (reads_peekSolid rfl rest) (reads_skip _ _)

end Reader

end Muster.Json
