/-!
# Splitting at a character

* `splitAt` cuts a text at every occurrence of a character, and `splitOnce?` at the first one.
-/

namespace Straightline.Text

/-- The pieces between the occurrences of `c`; there is one more piece than there are
    occurrences. -/
def splitAt (c : Char) : List Char → List (List Char)
  | [] => [[]]
  | d :: cs =>
    if d = c then [] :: splitAt c cs
    else
      match splitAt c cs with
      | [] => [[d]]
      | piece :: pieces => (d :: piece) :: pieces

/-- The text in front of the first `c` and the text behind it, if there is one. -/
def splitOnce? (c : Char) (cs : List Char) : Option (List Char × List Char) :=
  match cs.dropWhile (· ≠ c) with
  | [] => none
  | _ :: back => some (cs.takeWhile (· ≠ c), back)

/-- `splitOnce? c` splits at the first `c`. -/
theorem splitOnce?_append_cons {c : Char} {cs : List Char} (h : c ∉ cs) (ds : List Char) :
    splitOnce? c (cs ++ c :: ds) = some (cs, ds) := by
  have hne : ∀ d ∈ cs, decide (d ≠ c) = true := fun d hd =>
    decide_eq_true fun heq => h (heq ▸ hd)
  rw [splitOnce?, List.dropWhile_append_of_pos hne, List.takeWhile_append_of_pos hne]
  simp

/-- `splitAt` gives at least one part. -/
theorem splitAt_ne_nil (c : Char) (cs : List Char) : splitAt c cs ≠ [] := by
  cases cs with
  | nil => simp [splitAt]
  | cons d cs =>
    unfold splitAt
    split
    · simp
    · split <;> simp

/-- A text is cut at an occurrence of `c` into what is in front of it and what is behind it. -/
theorem splitAt_append_cons (c : Char) (cs ds : List Char) :
    splitAt c (cs ++ c :: ds) = splitAt c cs ++ splitAt c ds := by
  induction cs with
  | nil => simp [splitAt]
  | cons d cs ih =>
    rw [List.cons_append, splitAt, splitAt, ih]
    split
    · rfl
    · cases hpieces : splitAt c cs with
      | nil => exact absurd hpieces (splitAt_ne_nil c cs)
      | cons piece pieces => rfl

/-- `splitAt c` gives the whole text if there is no `c` in it. -/
theorem splitAt_of_notMem {c : Char} {cs : List Char} (h : c ∉ cs) : splitAt c cs = [cs] := by
  induction cs with
  | nil => rfl
  | cons d cs ih =>
    have hd : d ≠ c := fun heq => h (heq ▸ List.mem_cons_self)
    rw [splitAt, if_neg hd, ih fun hmem => h (List.mem_cons_of_mem d hmem)]

end Straightline.Text
