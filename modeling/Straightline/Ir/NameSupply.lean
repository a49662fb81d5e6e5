import Straightline.Decimal.Digits

/-!
# Unique local names

Block labels and results of instructions share one namespace per function. A name is asked for with
a hint; a hint that is taken is made unique by a number from a counter that the whole supply shares.

* `NameSupply.fresh` hands out a name that was never handed out before.
-/

namespace Straightline

/-- The names handed out so far, latest first, and the last number that was used to tell names
    apart. -/
structure NameSupply where
  taken : List String := []
  counter : Nat := 0
  deriving DecidableEq, Inhabited

namespace NameSupply

/-- A hint made distinct by a number. -/
def numbered (hint : String) (n : Nat) : String := hint ++ Decimal.text n

/-- The least number from `n` on that makes the hint a new name. Different numbers give different
    names, so one of any `taken.length + 1` numbers does, and trying `taken.length` of them
    decides. -/
def freshNumber (taken : List String) (hint : String) : (tries : Nat) → (n : Nat) → Nat
  | 0, n => n
  | tries + 1, n =>
    if numbered hint n ∈ taken then freshNumber taken hint tries (n + 1) else n

/-- Hand out the hint itself if it is new, and else the hint with the next number that makes it
    new. -/
def fresh (t : NameSupply) (hint : String) : String × NameSupply :=
  if hint ∈ t.taken then
    -- More numbers than taken names come into question, so one of them is free.
    let n := freshNumber t.taken hint t.taken.length (t.counter + 1)
    let name := numbered hint n
    (name, { taken := name :: t.taken, counter := n })
  else (hint, { t with taken := hint :: t.taken })

@[simp] theorem taken_fresh (t : NameSupply) (hint : String) :
    (t.fresh hint).2.taken = (t.fresh hint).1 :: t.taken := by
  unfold fresh
  split <;> rfl

/-- `fresh` gives the hint itself if it is not taken. -/
theorem fresh_of_not_mem {t : NameSupply} {hint : String} (h : hint ∉ t.taken) :
    t.fresh hint = (hint, { t with taken := hint :: t.taken }) := by
  simp [fresh, h]

end NameSupply

end Straightline
