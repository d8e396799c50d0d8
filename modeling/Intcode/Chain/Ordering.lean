/-!
# Orderings of a list

All orderings of a list by position, so that equal items at different positions give orderings of
their own. The first item varies slowest, and items are taken in the order of the list.
-/

set_option autoImplicit false

namespace Intcode.Chain

variable {Item Result Failure : Type}

/-- Each item of a list together with the others, in the order of the list. -/
def picks : List Item → List (Item × List Item)
  | [] => []
  | item :: items =>
      (item, items) :: (picks items).map fun (picked, others) => (picked, item :: others)

/-- The sequences of `count` items of a list at different positions. -/
def arrangements : (count : Nat) → List Item → List (List Item)
  | 0, _ => [[]]
  | count + 1, items =>
      (picks items).flatMap fun (item, others) => (arrangements count others).map (item :: ·)

def orderings (items : List Item) : List (List Item) := arrangements items.length items

/-- Visits the arrangements one after the other, without building the list of them, and stops at the
first failure. The items already chosen are given in reverse. -/
def visit (step : Result → List Item → Except Failure Result) :
    (count : Nat) → (chosen items : List Item) → Result → Except Failure Result
  | 0, chosen, _, result => step result chosen.reverse
  | count + 1, chosen, items, result =>
      (picks items).foldlM
        (fun result (item, others) => visit step count (item :: chosen) others result) result

end Intcode.Chain
