import Mathlib.Data.List.Nodup
import Mathlib.Data.List.Perm.Subperm
import Straightline.Ir.Module

/-!
# Names are unique

* `NameSupply.fresh_notMem`: a name that is handed out was never handed out before.
* `Body.localNames` are the names that a body uses.
-/

namespace Straightline

/-- Different numbers have different texts. -/
theorem Decimal.text_injective {n k : Nat} (h : text n = text k) : n = k := by
  have hdigits : Nat.toDigits 10 n = Nat.toDigits 10 k := String.ofList_inj.mp h
  have := congrArg (Nat.ofDigitChars 10 · 0) hdigits
  simpa only [Nat.ofDigitChars_ten_toDigits] using this

namespace NameSupply

/-- Different numbers make different names of a hint. -/
theorem numbered_injective (hint : String) {n k : Nat} (h : numbered hint n = numbered hint k) :
    n = k := by
  have := congrArg String.toList h
  rw [numbered, numbered, String.toList_append, String.toList_append] at this
  exact Decimal.text_injective (String.toList_inj.mp (List.append_cancel_left this))

/-- If `freshNumber` gives a number whose name is taken, then all names up to there are taken. -/
theorem taken_of_freshNumber {taken : List String} {hint : String} {tries n : Nat}
    (h : numbered hint (freshNumber taken hint tries n) ∈ taken) {k : Nat} (hk : k ≤ tries) :
    numbered hint (n + k) ∈ taken := by
  induction tries generalizing n k with
  | zero =>
    obtain rfl := Nat.le_zero.mp hk
    exact h
  | succ tries ih =>
    rw [freshNumber] at h
    split at h
    · next hn =>
      cases k with
      | zero => exact hn
      | succ k =>
        have := ih h (k := k) (by omega)
        rwa [Nat.add_right_comm] at this
    · -- The search stops early only at a name that is free.
      next hn => exact absurd h hn

/-- `fresh` gives a name that is not taken. -/
theorem fresh_notMem (t : NameSupply) (hint : String) : (t.fresh hint).1 ∉ t.taken := by
  unfold fresh
  split
  · intro h
    -- All the names that were tried would be taken, but there are more of them than taken names.
    have hnodup : ((List.range (t.taken.length + 1)).map fun k =>
        numbered hint (t.counter + 1 + k)).Nodup :=
      List.nodup_range.map fun a b hab => by
        have := numbered_injective hint hab
        omega
    have hsubset : ((List.range (t.taken.length + 1)).map fun k =>
        numbered hint (t.counter + 1 + k)) ⊆ t.taken := by
      intro name hname
      obtain ⟨k, hk, rfl⟩ := List.mem_map.mp hname
      exact taken_of_freshNumber h (Nat.le_of_lt_succ (List.mem_range.mp hk))
    have hlength := (hnodup.subperm hsubset).length_le
    rw [List.length_map, List.length_range] at hlength
    omega
  · next h => exact h

end NameSupply

/-- The labels of the blocks and the names of the results. -/
def Body.localNames (b : Body) : List String :=
  b.blocks.toList.map (·.label) ++ b.instructions.toList.filterMap (·.name)

end Straightline
