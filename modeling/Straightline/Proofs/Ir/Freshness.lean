import Mathlib.Order.Bounds.Defs
import Straightline.Proofs.Ir.Names

/-!
# Names in a row

A supply is asked for one name after the other.

* `NameSupply.Finds` is the search for a number with no bound on its rounds.
  `NameSupply.finds_iff_isLeast`: it ends at the least number that makes the hint new, and nowhere
  else.
* `NameSupply.freshAll` asks for names in a row.
* `NameSupply.names_unique`: the names are pairwise distinct, each is the hint or the hint with the
  number that the search finds, the search always ends, and the counter only grows.
-/

namespace Straightline.NameSupply

/-! ### The search for a number -/

/-- `Finds taken hint c n`: the search that starts at `c` ends at `n`. It counts up by one, and goes
    on as long as the name is taken. -/
inductive Finds (taken : List String) (hint : String) : Nat → Nat → Prop
  | stop {c : Nat} : numbered hint (c + 1) ∉ taken → Finds taken hint c (c + 1)
  | next {c n : Nat} : numbered hint (c + 1) ∈ taken → Finds taken hint (c + 1) n →
    Finds taken hint c n

variable {taken : List String} {hint : String}

/-- The search ends at the least number above `c` that makes the hint new. -/
theorem Finds.isLeast {c n : Nat} (h : Finds taken hint c n) :
    IsLeast {k | c < k ∧ numbered hint k ∉ taken} n := by
  induction h with
  | stop hnew => exact ⟨⟨Nat.lt_succ_self _, hnew⟩, fun k hk => hk.1⟩
  | @next c n htaken _ ih =>
    obtain ⟨⟨hlt, hnew⟩, hleast⟩ := ih
    refine ⟨⟨by omega, hnew⟩, fun k ⟨hk, hknew⟩ => hleast ⟨?_, hknew⟩⟩
    -- The first number is passed over because its name is taken.
    have hne : k ≠ c + 1 := fun h => hknew (h ▸ htaken)
    omega

/-- The search finds this number. -/
theorem finds_of_isLeast {c n : Nat} (h : IsLeast {k | c < k ∧ numbered hint k ∉ taken} n) :
    Finds taken hint c n := by
  obtain ⟨⟨hlt, hnew⟩, hleast⟩ := h
  obtain ⟨d, rfl⟩ : ∃ d, n = c + 1 + d := Nat.exists_eq_add_of_le hlt
  clear hlt
  -- By induction on the rounds that are left.
  induction d generalizing c with
  | zero => exact .stop hnew
  | succ d ih =>
    have htaken : numbered hint (c + 1) ∈ taken := by
      by_contra hfree
      have : c + 1 + (d + 1) ≤ c + 1 := hleast ⟨Nat.lt_succ_self c, hfree⟩
      omega
    have hshift : c + 1 + (d + 1) = c + 1 + 1 + d := by omega
    rw [hshift] at hnew hleast ⊢
    exact .next htaken (ih (fun k ⟨hk, hknew⟩ => hleast ⟨by omega, hknew⟩) hnew)

/-- The search ends at the least number that makes the hint new, and nowhere else. -/
theorem finds_iff_isLeast {c n : Nat} :
    Finds taken hint c n ↔ IsLeast {k | c < k ∧ numbered hint k ∉ taken} n :=
  ⟨Finds.isLeast, finds_of_isLeast⟩

/-! ### One name -/

/-- The number that is chosen for a hint. -/
abbrev number (t : NameSupply) (hint : String) : Nat :=
  freshNumber t.taken hint t.taken.length (t.counter + 1)

/-- `fresh` gives a taken hint the number that was chosen, which is the counter then. -/
theorem fresh_of_mem {t : NameSupply} (h : hint ∈ t.taken) :
    t.fresh hint = (numbered hint (t.number hint),
      ⟨numbered hint (t.number hint) :: t.taken, t.number hint⟩) :=
  if_pos h

/-- `freshNumber` counts up. -/
theorem le_freshNumber (tries n : Nat) : n ≤ freshNumber taken hint tries n := by
  induction tries generalizing n with
  | zero => exact Nat.le_refl n
  | succ tries ih =>
    rw [freshNumber]
    split
    · exact Nat.le_of_succ_le (ih (n + 1))
    · exact Nat.le_refl n

/-- All numbers that `freshNumber` passes over have taken names. -/
theorem mem_of_lt_freshNumber {tries n k : Nat} (hn : n ≤ k)
    (hk : k < freshNumber taken hint tries n) :
    numbered hint k ∈ taken := by
  induction tries generalizing n with
  | zero =>
    rw [freshNumber] at hk
    omega
  | succ tries ih =>
    rw [freshNumber] at hk
    split at hk
    · -- A number is passed over only if its name is taken.
      next htaken =>
      rcases Nat.eq_or_lt_of_le hn with rfl | hlt
      · exact htaken
      · exact ih hlt hk
    · omega

/-- `t.number hint` is the least number above the counter that makes the hint new. -/
theorem isLeast_number {t : NameSupply} (h : hint ∈ t.taken) :
    IsLeast {k | t.counter < k ∧ numbered hint k ∉ t.taken} (t.number hint) := by
  have hnew : numbered hint (t.number hint) ∉ t.taken := by
    have := fresh_notMem t hint
    rwa [fresh_of_mem h] at this
  refine ⟨⟨le_freshNumber _ _, hnew⟩, fun k ⟨hk, hknew⟩ => ?_⟩
  by_contra hlt
  exact hknew (mem_of_lt_freshNumber hk (Nat.lt_of_not_le hlt))

/-- `numbered hint n` is never the hint itself. -/
theorem numbered_ne (hint : String) (n : Nat) : numbered hint n ≠ hint := by
  intro h
  have hlist := congrArg String.toList h
  rw [numbered, String.toList_append, List.append_right_eq_self, Decimal.text,
    String.toList_ofList] at hlist
  exact Nat.toDigits_ne_nil hlist

/-- The search takes at most as many rounds as there are names: the hint and the names that are
    passed over are all taken, and they are distinct. -/
theorem number_le {t : NameSupply} (h : hint ∈ t.taken) :
    t.number hint ≤ t.counter + t.taken.length := by
  -- The numbers that are passed over are taken, and so is the hint, and all these names differ.
  let passed := (List.range (t.number hint - (t.counter + 1))).map fun k =>
    numbered hint (t.counter + 1 + k)
  have hnodup : (hint :: passed).Nodup := by
    refine List.nodup_cons.mpr ⟨fun hmem => ?_, List.nodup_range.map fun a b hab => ?_⟩
    · obtain ⟨k, -, hk⟩ := List.mem_map.mp hmem
      exact numbered_ne hint _ hk
    · have := numbered_injective hint hab
      omega
  have hsubset : hint :: passed ⊆ t.taken := by
    refine List.cons_subset.mpr ⟨h, fun name hname => ?_⟩
    obtain ⟨k, hk, rfl⟩ := List.mem_map.mp hname
    have hlt : t.counter + 1 + k < t.number hint := by
      have := List.mem_range.mp hk
      omega
    exact mem_of_lt_freshNumber (Nat.le_add_right _ k) hlt
  have hlength := (hnodup.subperm hsubset).length_le
  rw [List.length_cons, List.length_map, List.length_range] at hlength
  omega

/-- The counter only grows. -/
theorem counter_le_fresh (t : NameSupply) (hint : String) :
    t.counter ≤ (t.fresh hint).2.counter := by
  by_cases h : hint ∈ t.taken
  · rw [fresh_of_mem h]
    exact Nat.le_of_lt (isLeast_number h).1.1
  · have hcounter : (t.fresh hint).2.counter = t.counter := by rw [fresh_of_not_mem h]
    exact Nat.le_of_eq hcounter.symm

/-! ### Names in a row -/

/-- Ask for names in a row: the names, and the supply afterwards. -/
def freshAll (t : NameSupply) : List String → List String × NameSupply
  | [] => ([], t)
  | hint :: hints =>
    let rest := (t.fresh hint).2.freshAll hints
    ((t.fresh hint).1 :: rest.1, rest.2)

/-- `freshAll` takes the names that it gives, the last one first. -/
theorem taken_freshAll (t : NameSupply) (hints : List String) :
    (t.freshAll hints).2.taken = (t.freshAll hints).1.reverse ++ t.taken := by
  induction hints generalizing t with
  | nil => rfl
  | cons hint hints ih =>
    rw [freshAll, ih, taken_fresh, List.reverse_cons, List.append_assoc, List.singleton_append]

/-- Each name is new when it is handed out, so the names of a supply stay distinct. -/
theorem nodup_taken_freshAll {t : NameSupply} (h : t.taken.Nodup) (hints : List String) :
    (t.freshAll hints).2.taken.Nodup := by
  induction hints generalizing t with
  | nil => exact h
  | cons hint hints ih =>
    refine ih ?_
    rw [taken_fresh]
    exact List.nodup_cons.mpr ⟨fresh_notMem t hint, h⟩

/-- The counter only grows while names are handed out. -/
theorem counter_le_freshAll (t : NameSupply) (hints : List String) :
    t.counter ≤ (t.freshAll hints).2.counter := by
  induction hints generalizing t with
  | nil => exact Nat.le_refl _
  | cons hint hints ih => exact Nat.le_trans (counter_le_fresh t hint) (ih _)

/-- `freshAll (hints ++ more)` hands out names for `hints` and then for `more`. -/
theorem freshAll_append (t : NameSupply) (hints more : List String) :
    (t.freshAll (hints ++ more)).2 = ((t.freshAll hints).2.freshAll more).2 := by
  induction hints generalizing t with
  | nil => rfl
  | cons hint hints ih => exact ih _

/-- Names in a row are pairwise distinct and the counter only grows. A hint that was not handed out
    is handed out as it is. For any other the search ends after no more rounds than there are names,
    at the least number above the counter that makes the hint new; the hint is handed out with this
    number, which is the counter then. -/
theorem names_unique (hints : List String) :
    let names := (freshAll {} hints).1
    let t := (freshAll {} hints).2
    names.Nodup ∧ (∀ name, name ∈ t.taken ↔ name ∈ names) ∧
      (∀ more, t.counter ≤ (freshAll {} (hints ++ more)).2.counter) ∧
      (∀ hint, hint ∉ names → t.fresh hint = (hint, ⟨hint :: t.taken, t.counter⟩)) ∧
      ∀ hint ∈ names, ∃ n, Finds names hint t.counter n ∧ n ≤ t.counter + names.length ∧
        IsLeast {k | t.counter < k ∧ numbered hint k ∉ names} n ∧
        t.fresh hint = (numbered hint n, ⟨numbered hint n :: t.taken, n⟩) := by
  intro names t
  have htaken : t.taken = names.reverse := by
    rw [taken_freshAll, List.append_nil]
  have hmem : ∀ name, name ∈ t.taken ↔ name ∈ names := fun name => by rw [htaken, List.mem_reverse]
  have hnodup : t.taken.Nodup := nodup_taken_freshAll List.nodup_nil hints
  refine ⟨?_, hmem, fun more => ?_, fun hint hnew => ?_, fun hint hold => ?_⟩
  · rwa [htaken, List.nodup_reverse] at hnodup
  · rw [freshAll_append]
    exact counter_le_freshAll t more
  · exact fresh_of_not_mem fun h => hnew ((hmem hint).mp h)
  · -- A hint that is taken is numbered with the least number behind the counter that is not.
    have hold := (hmem hint).mpr hold
    have hleast := isLeast_number hold
    have hrounds := number_le hold
    rw [htaken, List.length_reverse] at hrounds
    simp only [hmem] at hleast
    exact ⟨t.number hint, finds_of_isLeast hleast, hrounds, hleast, fresh_of_mem hold⟩

/-- The number one is passed over for `a`, because `a1` was handed out as it is. -/
theorem names_unique_sample :
    (freshAll {} ["a1", "a"]).1 = ["a1", "a"] ∧ "a" ∈ (freshAll {} ["a1", "a"]).1 ∧
      ∃ n, Finds ["a1", "a"] "a" 0 n ∧ n ≤ 0 + 2 ∧
        IsLeast {k | 0 < k ∧ numbered "a" k ∉ ["a1", "a"]} n ∧
        (freshAll {} ["a1", "a"]).2.fresh "a" =
          (numbered "a" n, ⟨numbered "a" n :: ["a", "a1"], n⟩) := by
  have hnames : freshAll {} ["a1", "a"] = (["a1", "a"], ⟨["a", "a1"], 0⟩) := by decide +kernel
  have h := (names_unique ["a1", "a"]).2.2.2.2 "a"
  rw [hnames] at h ⊢
  exact ⟨rfl, by decide, h (by decide)⟩

end Straightline.NameSupply
