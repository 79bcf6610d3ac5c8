/-!
# Totals

Natural numbers added up, from the first one to the last.
-/

namespace Muster

def total : List Nat → Nat
  | [] => 0
  | number :: numbers => number + total numbers

@[simp] theorem total_nil : total [] = 0 := by
  rfl

@[simp] theorem total_cons (number : Nat) (numbers : List Nat) :
    total (number :: numbers) = number + total numbers := by
  rfl

@[simp] theorem total_append (first second : List Nat) :
    total (first ++ second) = total first + total second := by
  induction first with
  | nil => simp
  | cons number first ih =>
    rw [List.cons_append, total_cons, total_cons, ih, Nat.add_assoc]

end Muster
