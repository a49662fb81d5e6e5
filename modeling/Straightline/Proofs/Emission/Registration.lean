import Straightline.Proofs.Emission.Slots

/-!
# First registrations

Names are numbered in one table and have their slots in another one, which has an index by name
beside its arena of slots. Updates of the two come in any order. What came first stays, and arena
and index stay inverse to each other.

* `NameTables.Update` are the updates, and `NameTables.performAll` makes them in a row.
  `NameTables.AllApply` says that each is about a symbol and a slot that exist when it comes.
* `Interner.texts_intern` and `SlotTable.Records.perform` say what one update does: the texts, the
  slots and their flags are told by the updates that were made.
* `tables_keep_first` says so of updates in a row and of everything that they answered.
-/

namespace Straightline

/-! ### Elements without repetitions -/

section

variable {α : Type} [DecidableEq α]

/-- `eraseDups` leaves no element twice. -/
theorem nodup_eraseDups (xs : List α) : xs.eraseDups.Nodup := by
  -- Elements are added at the end, as updates are.
  induction xs using List.reverseRecOn with
  | nil => exact List.nodup_nil
  | append_singleton xs x ih =>
    by_cases h : x ∈ xs
    · rwa [eraseDups_append_of_mem h]
    · rw [eraseDups_append_of_not_mem h]
      refine List.nodup_append.mpr ⟨ih, List.nodup_singleton x, fun y hy z hz => ?_⟩
      obtain rfl := List.mem_singleton.mp hz
      rintro rfl
      exact h (List.mem_eraseDups.mp hy)

/-- What comes first keeps its position when more is added behind. -/
theorem getElem?_eraseDups_append {xs : List α} {x : α} {i : Nat} (h : xs.eraseDups[i]? = some x)
    (ys : List α) :
    (xs ++ ys).eraseDups[i]? = some x := by
  rw [List.eraseDups_append, List.getElem?_append_left (List.getElem?_eq_some_iff.mp h).1, h]

end

/-- `filterMap` of one more element adds what `f` gives of it. -/
theorem filterMap_append_singleton {α β : Type} (f : α → Option β) (xs : List α) (x : α) :
    (xs ++ [x]).filterMap f = xs.filterMap f ++ (f x).toList := by
  rw [List.filterMap_append, List.filterMap_cons]
  cases f x <;> rfl

/-! ### Updates -/

/-- The names of a compilation and their slots. -/
structure NameTables where
  interner : Interner := {}
  slots : SlotTable := {}

namespace NameTables

/-- An update of the names or of the slots. -/
inductive Update where
  | intern (text : String)
  | register (symbol : Nat) (ptr : Operand)
  | markWritten (slot : Nat)
  | markWarned (slot : Nat)
  deriving DecidableEq

namespace Update

/-- What an update is about exists. -/
def Applies (t : NameTables) : Update → Prop
  | intern _ => True
  | register symbol _ => symbol < t.interner.size
  | markWritten slot => slot < t.slots.size
  | markWarned slot => slot < t.slots.size

instance decidableApplies (t : NameTables) : (u : Update) → Decidable (u.Applies t)
  | intern _ => .isTrue trivial
  | register symbol _ => inferInstanceAs (Decidable (symbol < t.interner.size))
  | markWritten slot => inferInstanceAs (Decidable (slot < t.slots.size))
  | markWarned slot => inferInstanceAs (Decidable (slot < t.slots.size))

/-- Make an update. The answer is the symbol of a text, the slot of a symbol, or the slot that is
    marked. -/
def perform (t : NameTables) : Update → Nat × NameTables
  | intern text => ((t.interner.intern text).1, { t with interner := (t.interner.intern text).2 })
  | register symbol ptr =>
    ((t.slots.register symbol ptr).1, { t with slots := (t.slots.register symbol ptr).2 })
  | markWritten slot => (slot, { t with slots := t.slots.markWritten slot })
  | markWarned slot => (slot, { t with slots := t.slots.markWarned slot })

/-- The text that is interned. -/
def text? : Update → Option String
  | intern text => some text
  | _ => none

/-- The symbol that is registered. -/
def symbol? : Update → Option Nat
  | register symbol _ => some symbol
  | _ => none

/-- The pointer that is registered for a symbol. -/
def ptrFor? (symbol : Nat) : Update → Option Operand
  | register symbol' ptr => if symbol' = symbol then some ptr else none
  | _ => none

/-- A symbol is registered by some update iff it is among the `symbol?` of all. -/
theorem mem_filterMap_symbol? {symbol : Nat} {us : List Update} :
    symbol ∈ us.filterMap symbol? ↔ ∃ ptr, register symbol ptr ∈ us := by
  rw [List.mem_filterMap]
  constructor
  · rintro ⟨u, hu, hsymbol⟩
    cases u with
    | register symbol' ptr =>
      obtain rfl : symbol' = symbol := Option.some.inj hsymbol
      exact ⟨ptr, hu⟩
    | intern | markWritten | markWarned => cases hsymbol
  · rintro ⟨ptr, hptr⟩
    exact ⟨_, hptr, rfl⟩

/-- An update has a pointer for a symbol iff it registers it. -/
theorem ptrFor?_eq_none_iff {symbol : Nat} {u : Update} :
    u.ptrFor? symbol = none ↔ u.symbol? ≠ some symbol := by
  cases u <;> simp [ptrFor?, symbol?]

/-- A symbol that was not registered has no pointer. -/
theorem findSome?_ptrFor?_eq_none {symbol : Nat} {us : List Update}
    (h : symbol ∉ us.filterMap symbol?) :
    us.findSome? (ptrFor? symbol) = none := by
  refine List.findSome?_eq_none_iff.mpr fun u hu => ptrFor?_eq_none_iff.mpr fun hsymbol => ?_
  exact h (List.mem_filterMap.mpr ⟨u, hu, hsymbol⟩)

end Update

/-- Make updates in a row: the answers, and the tables afterwards. -/
def performAll (t : NameTables) : List Update → List Nat × NameTables
  | [] => ([], t)
  | u :: us =>
    let rest := performAll (u.perform t).2 us
    ((u.perform t).1 :: rest.1, rest.2)

/-- Each update is about what exists when it comes. -/
def AllApply (t : NameTables) : List Update → Prop
  | [] => True
  | u :: us => u.Applies t ∧ AllApply (u.perform t).2 us

instance decidableAllApply : (t : NameTables) → (us : List Update) → Decidable (t.AllApply us)
  | _, [] => .isTrue trivial
  | t, u :: us =>
    have := decidableAllApply (u.perform t).2 us
    inferInstanceAs (Decidable (u.Applies t ∧ AllApply (u.perform t).2 us))

variable {t : NameTables} {us vs : List Update}

/-- `performAll (us ++ vs)` makes the updates `us` and then `vs`, and answers in this order. -/
theorem performAll_append (t : NameTables) (us vs : List Update) :
    performAll t (us ++ vs) =
      ((t.performAll us).1 ++ ((t.performAll us).2.performAll vs).1,
        ((t.performAll us).2.performAll vs).2) := by
  induction us generalizing t with
  | nil => rfl
  | cons u us ih =>
    rw [List.cons_append, performAll, ih]
    rfl

/-- There is one answer for each update. -/
theorem length_answers (t : NameTables) (us : List Update) :
    (t.performAll us).1.length = us.length := by
  induction us generalizing t with
  | nil => rfl
  | cons u us ih => rw [performAll, List.length_cons, ih, List.length_cons]

/-- Updates in a row apply iff the first do, and the others do to what those lead to. -/
theorem allApply_append :
    t.AllApply (us ++ vs) ↔ t.AllApply us ∧ (t.performAll us).2.AllApply vs := by
  induction us generalizing t with
  | nil => exact (iff_of_eq (true_and _)).symm
  | cons u us ih =>
    rw [List.cons_append, AllApply, ih, AllApply, and_assoc]
    rfl

/-- An answer is that of the update to the tables that the updates in front of it led to. -/
theorem exists_of_mem_answers {u : Update} {answer : Nat}
    (h : (u, answer) ∈ us.zip (t.performAll us).1) :
    ∃ before after, us = before ++ u :: after ∧ (u.perform (t.performAll before).2).1 = answer := by
  induction us generalizing t with
  | nil => cases h
  | cons v us ih =>
    rcases List.mem_cons.mp h with h | h
    · obtain ⟨rfl, rfl⟩ := Prod.mk.inj h
      exact ⟨[], us, rfl, rfl⟩
    · obtain ⟨before, after, rfl, hanswer⟩ := ih h
      exact ⟨v :: before, after, rfl, hanswer⟩

end NameTables

open NameTables

/-! ### Texts -/

namespace Interner

variable {t : Interner} {texts : List String}

/-- If the texts of `t` are `texts.eraseDups`, then after `intern text` they are `(texts ++
    [text]).eraseDups`. -/
theorem texts_intern (h : t.texts.toList = texts.eraseDups) (text : String) :
    (t.intern text).2.texts.toList = (texts ++ [text]).eraseDups := by
  cases hfind : t.find? text with
  | some symbol =>
    -- The arena has the texts without repetitions, so a text is found iff it was interned.
    have hmem : text ∈ texts := by
      by_contra hnew
      rw [find?, h, List.idxOf?_eq_none_iff.mpr (by simpa using hnew)] at hfind
      cases hfind
    rw [intern_of_find?_eq_some hfind, eraseDups_append_of_mem hmem, h]
  | none =>
    have hnew : text ∉ texts := by
      rw [find?, h, List.idxOf?_eq_none_iff] at hfind
      simpa using hfind
    rw [intern_of_find?_eq_none hfind, eraseDups_append_of_not_mem hnew, Array.toList_push, h]

/-- A text stands at the position that `intern` answers. -/
theorem getElem?_intern (t : Interner) (text : String) :
    (t.intern text).2.texts.toList[(t.intern text).1]? = some text := by
  cases hfind : t.find? text with
  | some symbol =>
    rw [intern_of_find?_eq_some hfind]
    rw [find?, List.idxOf?, List.findIdx?_eq_some_iff_getElem] at hfind
    obtain ⟨hlt, htext, -⟩ := hfind
    exact List.getElem?_eq_some_iff.mpr ⟨hlt, by simpa using htext⟩
  | none =>
    rw [intern_of_find?_eq_none hfind]
    simp [size]

end Interner

/-! ### Slots -/

namespace SlotTable

/-- `t.Records updates`: the slots of `t` are the symbols that `updates` register, in the order in
    which they first came and with the pointers that came then. A slot has a flag iff it was marked
    so, and the index is inverse to the arena. -/
structure Records (t : SlotTable) (updates : List Update) : Prop where
  indexed : t.Indexed
  symbols : t.slots.toList.map (·.symbol) = (updates.filterMap Update.symbol?).eraseDups
  ptr : ∀ i slot, t.get? i = some slot →
    updates.findSome? (Update.ptrFor? slot.symbol) = some slot.ptr
  written : ∀ i slot, t.get? i = some slot → (slot.written = true ↔ .markWritten i ∈ updates)
  warned : ∀ i slot, t.get? i = some slot → (slot.warned = true ↔ .markWarned i ∈ updates)
  marked : ∀ i, .markWritten i ∈ updates ∨ .markWarned i ∈ updates → i < t.size

/-- An empty table records no updates. -/
theorem records_empty : Records {} [] := by
  refine ⟨indexed_empty, rfl, fun _ _ h => ?_, fun _ _ h => ?_, fun _ _ h => ?_, fun _ h => ?_⟩
  · cases h
  · cases h
  · cases h
  · simp at h

/-- A slot of `t.modify i f` is the changed one, or as it was. -/
theorem exists_of_get?_modify {t : SlotTable} {f : Slot → Slot} {i j : Nat} {s : Slot}
    (h : (t.modify i f).get? j = some s) :
    ∃ s', t.get? j = some s' ∧ s = if i = j then f s' else s' := by
  rw [get?_modify] at h
  split at h
  · next hij =>
    obtain ⟨s', hs', rfl⟩ := Option.map_eq_some_iff.mp h
    exact ⟨s', hs', (if_pos hij).symm⟩
  · next hij => exact ⟨s, h, (if_neg hij).symm⟩

/-- The symbol at `i` in the arena is that of the slot at `i`. -/
theorem getElem?_map_symbol (t : SlotTable) (i : Nat) :
    (t.slots.toList.map (·.symbol))[i]? = (t.get? i).map (·.symbol) := by
  rw [List.getElem?_map, Array.getElem?_toList]
  rfl

/-- `lookup? symbol = some i` iff the symbol stands at `i` in the arena. -/
theorem Indexed.lookup?_eq_some_iff {t : SlotTable} (h : t.Indexed) {symbol i : Nat} :
    t.lookup? symbol = some i ↔ (t.slots.toList.map (·.symbol))[i]? = some symbol := by
  rw [h symbol i, getElem?_map_symbol, Option.map_eq_some_iff]

/-- After `register`, the index leads from the symbol to the slot that was answered. -/
theorem lookup?_register (t : SlotTable) (symbol : Nat) (ptr : Operand) :
    (t.register symbol ptr).2.lookup? symbol = some (t.register symbol ptr).1 := by
  cases hlookup : t.lookup? symbol with
  | some i => rw [register_of_lookup?_eq_some ptr hlookup, hlookup]
  | none => rw [register_of_lookup?_eq_none ptr hlookup, lookup?_add, if_pos rfl]

namespace Records

variable {t : SlotTable} {updates : List Update}

/-- There are as many slots as symbols that were registered. -/
theorem size_eq (h : t.Records updates) :
    t.size = (updates.filterMap Update.symbol?).eraseDups.length := by
  rw [← h.symbols, List.length_map]
  rfl

/-- The slot of a symbol is its position among those that were registered. -/
theorem lookup?_eq_some_iff (h : t.Records updates) {symbol i : Nat} :
    t.lookup? symbol = some i ↔ (updates.filterMap Update.symbol?).eraseDups[i]? = some symbol := by
  rw [h.indexed.lookup?_eq_some_iff, h.symbols]

/-- `lookup? symbol = none` iff the symbol was not registered. -/
theorem lookup?_eq_none_iff (h : t.Records updates) {symbol : Nat} :
    t.lookup? symbol = none ↔ symbol ∉ updates.filterMap Update.symbol? := by
  rw [Option.eq_none_iff_forall_ne_some, ← List.mem_eraseDups, List.mem_iff_getElem?, not_exists]
  simp only [ne_eq, h.lookup?_eq_some_iff]

/-- The pointer that came first for a slot stays so after one more update. -/
theorem ptr_append (h : t.Records updates) {i : Nat} {slot : Slot} (hslot : t.get? i = some slot)
    (u : Update) :
    (updates ++ [u]).findSome? (Update.ptrFor? slot.symbol) = some slot.ptr := by
  rw [List.findSome?_append, h.ptr i slot hslot]
  rfl

/-- An update that registers nothing new and marks nothing may leave the slots as they are. -/
theorem unchanged (h : t.Records updates) {u : Update}
    (hsymbol : ∀ symbol ∈ u.symbol?, symbol ∈ updates.filterMap Update.symbol?)
    (hmark : ∀ i, u ≠ .markWritten i ∧ u ≠ .markWarned i) : t.Records (updates ++ [u]) := by
  have hwritten : ∀ i, .markWritten i ∈ updates ++ [u] ↔ .markWritten i ∈ updates := fun i => by
    simp [(hmark i).1.symm]
  have hwarned : ∀ i, .markWarned i ∈ updates ++ [u] ↔ .markWarned i ∈ updates := fun i => by
    simp [(hmark i).2.symm]
  refine ⟨h.indexed, ?_, fun i slot hslot => h.ptr_append hslot u, fun i slot hslot => ?_,
    fun i slot hslot => ?_, fun i hi => ?_⟩
  · rw [filterMap_append_singleton, h.symbols]
    -- The symbol of `u`, if it has one, was registered before.
    cases hu : u.symbol? with
    | none => simp
    | some symbol => exact (eraseDups_append_of_mem (hsymbol symbol hu)).symm
  · rw [hwritten, h.written i slot hslot]
  · rw [hwarned, h.warned i slot hslot]
  · rw [hwritten, hwarned] at hi
    exact h.marked i hi

/-- A new symbol gets a slot at the end, which is not marked. -/
theorem push (h : t.Records updates) {symbol : Nat}
    (hnew : symbol ∉ updates.filterMap Update.symbol?) (ptr : Operand) :
    (t.add { symbol, ptr }).Records (updates ++ [.register symbol ptr]) := by
  have hslots : ∀ {i : Nat} {slot : Slot}, (t.add { symbol, ptr }).get? i = some slot →
      i = t.size ∧ slot = { symbol, ptr } ∨ t.get? i = some slot := by
    intro i slot hslot
    rw [get?_add] at hslot
    split at hslot
    · next hi => exact .inl ⟨hi, (Option.some.inj hslot).symm⟩
    · exact .inr hslot
  -- No mark can have been on the slot before it was there.
  have hunmarked := mt (h.marked t.size) (Nat.lt_irrefl _)
  refine ⟨h.indexed.add (h.lookup?_eq_none_iff.mpr hnew), ?_, fun i slot hslot => ?_,
    fun i slot hslot => ?_, fun i slot hslot => ?_, fun i hi => ?_⟩
  · show (t.slots.push _).toList.map (·.symbol) = _
    rw [filterMap_append_singleton, Array.toList_push, List.map_append, h.symbols]
    exact (eraseDups_append_of_not_mem hnew).symm
  · rcases hslots hslot with ⟨-, rfl⟩ | hslot
    · rw [List.findSome?_append, Update.findSome?_ptrFor?_eq_none hnew]
      simp [Update.ptrFor?]
    · exact h.ptr_append hslot _
  · rcases hslots hslot with ⟨rfl, rfl⟩ | hslot
    · simpa using fun hmem => hunmarked (.inl hmem)
    · simpa using h.written i slot hslot
  · rcases hslots hslot with ⟨rfl, rfl⟩ | hslot
    · simpa using fun hmem => hunmarked (.inr hmem)
    · simpa using h.warned i slot hslot
  · have hlt := h.marked i (by simpa using hi)
    rw [size_add]
    exact Nat.lt_succ_of_lt hlt

/-- Marking a slot changes the flag of that slot only. The index is as it was, since no symbol
    changes. -/
theorem mark (h : t.Records updates) {i : Nat} (hi : i < t.size) {u : Update} {f : Slot → Slot}
    (hsymbol : ∀ s, (f s).symbol = s.symbol) (hptr : ∀ s, (f s).ptr = s.ptr) (hu : u.symbol? = none)
    (hwritten : ∀ j s, (if i = j then f s else s).written = true ↔ s.written = true ∨
      .markWritten j = u)
    (hwarned : ∀ j s, (if i = j then f s else s).warned = true ↔ s.warned = true ∨
      .markWarned j = u)
    (hmark : ∀ j, .markWritten j = u ∨ .markWarned j = u → j = i) :
    (t.modify i f).Records (updates ++ [u]) := by
  refine ⟨h.indexed.modify i hsymbol, ?_, fun j slot hslot => ?_, fun j slot hslot => ?_,
    fun j slot hslot => ?_, fun j hj => ?_⟩
  · rw [filterMap_append_singleton, hu, Option.toList_none, List.append_nil, ← h.symbols]
    exact map_modify hsymbol t i
  · obtain ⟨s, hs, rfl⟩ := exists_of_get?_modify hslot
    -- Neither the symbol nor the pointer of a slot is touched.
    have hkept : (if i = j then f s else s).symbol = s.symbol ∧
        (if i = j then f s else s).ptr = s.ptr := by
      split
      · exact ⟨hsymbol s, hptr s⟩
      · exact ⟨rfl, rfl⟩
    rw [hkept.1, hkept.2]
    exact h.ptr_append hs u
  · obtain ⟨s, hs, rfl⟩ := exists_of_get?_modify hslot
    rw [hwritten, h.written j s hs, List.mem_append, List.mem_singleton]
  · obtain ⟨s, hs, rfl⟩ := exists_of_get?_modify hslot
    rw [hwarned, h.warned j s hs, List.mem_append, List.mem_singleton]
  · rw [size_modify]
    simp only [List.mem_append, List.mem_singleton] at hj
    -- A mark is one of the updates before, or it is `u`, which marks `i`.
    rcases hj with (hj | hj) | hj | hj
    · exact h.marked j (.inl hj)
    · exact hmark j (.inl hj) ▸ hi
    · exact h.marked j (.inr hj)
    · exact hmark j (.inr hj) ▸ hi

/-- Every update that applies leaves slots that record it. -/
theorem perform {names : NameTables} (h : names.slots.Records updates) {u : Update}
    (hu : u.Applies names) :
    (u.perform names).2.slots.Records (updates ++ [u]) := by
  cases u with
  | intern text => exact h.unchanged (by simp [Update.symbol?]) (by simp)
  -- A symbol that the index finds is not registered again. Any other is new.
  | register symbol ptr =>
    show (names.slots.register symbol ptr).2.Records _
    cases hlookup : names.slots.lookup? symbol with
    | some i =>
      rw [register_of_lookup?_eq_some ptr hlookup]
      refine h.unchanged (fun symbol' hsymbol' => ?_) (by simp)
      obtain rfl : symbol = symbol' := Option.some.inj hsymbol'
      by_contra hnew
      rw [h.lookup?_eq_none_iff.mpr hnew] at hlookup
      cases hlookup
    | none =>
      rw [register_of_lookup?_eq_none ptr hlookup]
      exact h.push (h.lookup?_eq_none_iff.mp hlookup) ptr
  | markWritten i =>
    refine h.mark hu (fun _ => rfl) (fun _ => rfl) rfl (fun j s => ?_) (fun j s => ?_) (by simp)
    · rcases eq_or_ne i j with rfl | hij <;> simp [*, Ne.symm]
    · by_cases hij : i = j <;> simp [hij]
  | markWarned i =>
    refine h.mark hu (fun _ => rfl) (fun _ => rfl) rfl (fun j s => ?_) (fun j s => ?_) (by simp)
    · by_cases hij : i = j <;> simp [hij]
    · rcases eq_or_ne i j with rfl | hij <;> simp [*, Ne.symm]

end Records

end SlotTable

/-! ### Updates in a row -/

namespace NameTables

/-- The tables tell the updates that were made. -/
structure Records (t : NameTables) (updates : List Update) : Prop where
  texts : t.interner.texts.toList = (updates.filterMap Update.text?).eraseDups
  slots : t.slots.Records updates

theorem records_empty : Records {} [] := ⟨rfl, SlotTable.records_empty⟩

variable {t : NameTables} {updates : List Update}

/-- Every update that applies leaves tables that record it. -/
theorem Records.perform (h : t.Records updates) {u : Update} (hu : u.Applies t) :
    (u.perform t).2.Records (updates ++ [u]) := by
  refine ⟨?_, h.slots.perform hu⟩
  rw [filterMap_append_singleton]
  cases u with
  | intern text => exact Interner.texts_intern h.texts text
  | register | markWritten | markWarned =>
    show _ = (_ ++ []).eraseDups
    rw [List.append_nil]
    exact h.texts

/-- Updates in a row leave tables that record them. -/
theorem Records.performAll (h : t.Records updates) {us : List Update} (hus : t.AllApply us) :
    (t.performAll us).2.Records (updates ++ us) := by
  induction us generalizing t updates with
  | nil =>
    rw [List.append_nil]
    exact h
  | cons u us ih =>
    have hrest := ih (h.perform hus.1) hus.2
    rwa [List.append_assoc] at hrest

/-- Updates of new tables leave what records them. -/
theorem records_performAll (h : AllApply {} updates) :
    (performAll {} updates).2.Records updates := by
  simpa using records_empty.performAll h

/-- The tables that an update comes to, and those that it leaves, record the updates up to there. -/
theorem records_of_split {before after : List Update} {u : Update}
    (h : AllApply {} (before ++ u :: after)) :
    (performAll {} before).2.Records before ∧
    (u.perform (performAll {} before).2).2.Records (before ++ [u]) := by
  obtain ⟨hbefore, hu, -⟩ := allApply_append.mp h
  exact ⟨records_performAll hbefore, (records_performAll hbefore).perform hu⟩

/-- What was recorded of updates up to one of them stays at its position. -/
theorem getElem?_of_split {α : Type} [DecidableEq α] {f : Update → Option α} {before : List Update}
    {u : Update} {x : α} {i : Nat} (h : ((before ++ [u]).filterMap f).eraseDups[i]? = some x)
    (after : List Update) :
    ((before ++ u :: after).filterMap f).eraseDups[i]? = some x := by
  have hlater := getElem?_eraseDups_append h (after.filterMap f)
  rwa [← List.filterMap_append, List.append_assoc] at hlater

/-- A text stands at the symbol that `intern` answered. -/
theorem getElem?_of_intern (h : AllApply {} updates) {text : String} {symbol : Nat}
    (hcall : (.intern text, symbol) ∈ updates.zip (performAll {} updates).1) :
    (updates.filterMap Update.text?).eraseDups[symbol]? = some text := by
  obtain ⟨before, after, rfl, rfl⟩ := exists_of_mem_answers hcall
  refine getElem?_of_split ?_ after
  rw [← (records_of_split h).2.texts]
  exact Interner.getElem?_intern _ text

/-- A symbol stands at the slot that `register` answered. -/
theorem getElem?_of_register (h : AllApply {} updates) {symbol slot : Nat} {ptr : Operand}
    (hcall : (.register symbol ptr, slot) ∈ updates.zip (performAll {} updates).1) :
    (updates.filterMap Update.symbol?).eraseDups[slot]? = some symbol := by
  obtain ⟨before, after, rfl, rfl⟩ := exists_of_mem_answers hcall
  refine getElem?_of_split ?_ after
  exact (records_of_split h).2.slots.lookup?_eq_some_iff.mp
    (SlotTable.lookup?_register _ symbol ptr)

/-- The first registration of a symbol makes a slot, which stays that of the symbol and keeps its
    pointer. -/
theorem exists_slot_of_first {before after : List Update} {symbol : Nat} {ptr : Operand}
    (h : AllApply {} (before ++ .register symbol ptr :: after))
    (hnew : symbol ∉ before.filterMap Update.symbol?) :
    let i := (performAll {} before).2.slots.size
    let t := (performAll {} (before ++ .register symbol ptr :: after)).2
    (performAll {} (before ++ .register symbol ptr :: after)).1[before.length]? = some i ∧
      t.slots.lookup? symbol = some i ∧
      ∃ slot, t.slots.get? i = some slot ∧ slot.symbol = symbol ∧ slot.ptr = ptr := by
  intro i t
  have hrecords : t.Records _ := records_performAll h
  obtain ⟨hbefore, hregister⟩ := records_of_split h
  have hlookup := hbefore.slots.lookup?_eq_none_iff.mpr hnew
  have hanswer : ((Update.register symbol ptr).perform (performAll {} before).2).1 = i := by
    rw [Update.perform, SlotTable.register_of_lookup?_eq_none ptr hlookup]
  -- No update behind takes the position away.
  have hposition :
      ((before ++ .register symbol ptr :: after).filterMap Update.symbol?).eraseDups[i]? =
        some symbol := by
    refine getElem?_of_split ?_ after
    rw [← hanswer]
    exact hregister.slots.lookup?_eq_some_iff.mp (SlotTable.lookup?_register _ symbol ptr)
  refine ⟨?_, hrecords.slots.lookup?_eq_some_iff.mpr hposition, ?_⟩
  · rw [performAll_append, List.getElem?_append_right (Nat.le_of_eq (length_answers {} before)),
      length_answers, Nat.sub_self]
    exact congrArg some hanswer
  · rw [← hrecords.slots.symbols, SlotTable.getElem?_map_symbol] at hposition
    obtain ⟨slot, hslot, hsymbol⟩ := Option.map_eq_some_iff.mp hposition
    have hptr := hrecords.slots.ptr i slot hslot
    rw [hsymbol, List.findSome?_append, Update.findSome?_ptrFor?_eq_none hnew] at hptr
    exact ⟨slot, hslot, hsymbol, by simpa [Update.ptrFor?] using hptr.symm⟩

end NameTables

open NameTables.Update in
/-- After updates in a row, symbols are the positions of texts in the order in which they first
    came, so equal texts have equal symbols and different ones have different symbols, and a symbol
    resolves to its text. The arena of slots and the index by name are inverse to each other:
    `byName[symbol]? = some i` iff the slot at `i` is that of the symbol. A symbol that was not
    registered has no slot. Any other has the slot that was made for it when it first came, with the
    pointer that came then, and every registration of it answers that slot. There are as many slots
    as symbols that were registered, and a slot has a flag iff it was marked so. -/
theorem tables_keep_first (updates : List Update) (h : AllApply {} updates) :
    let answers := (performAll {} updates).1
    let t := (performAll {} updates).2
    let texts := (updates.filterMap text?).eraseDups
    let symbols := (updates.filterMap symbol?).eraseDups
    answers.length = updates.length ∧
    (∀ text symbol, (intern text, symbol) ∈ updates.zip answers →
      texts[symbol]? = some text ∧ t.interner.resolve? symbol = some text ∧
      ∀ text' symbol', (intern text', symbol') ∈ updates.zip answers →
        (symbol = symbol' ↔ text = text')) ∧
    t.interner.size = texts.length ∧
    (∀ symbol i : Nat, t.slots.byName[symbol]? = some i ↔
      ∃ slot, t.slots.slots[i]? = some slot ∧ slot.symbol = symbol) ∧
    (∀ symbol, t.slots.lookup? symbol = none ↔ ∀ ptr, register symbol ptr ∉ updates) ∧
    (∀ before symbol ptr after, updates = before ++ register symbol ptr :: after →
      (∀ ptr', register symbol ptr' ∉ before) →
        ∃ i slot, i = (performAll {} before).2.slots.size ∧ answers[before.length]? = some i ∧
          t.slots.lookup? symbol = some i ∧ t.slots.get? i = some slot ∧ slot.symbol = symbol ∧
            slot.ptr = ptr) ∧
    (∀ symbol ptr i, (register symbol ptr, i) ∈ updates.zip answers →
      t.slots.lookup? symbol = some i) ∧
    t.slots.size = symbols.length ∧
    ∀ i slot, t.slots.get? i = some slot → t.slots.lookup? slot.symbol = some i ∧
      (slot.written = true ↔ markWritten i ∈ updates) ∧
      (slot.warned = true ↔ markWarned i ∈ updates) := by
  intro answers t texts symbols
  -- The tables record the updates, and each part reads this off.
  have hrecords : t.Records updates := records_performAll h
  have hresolve : ∀ symbol, t.interner.resolve? symbol = texts[symbol]? := fun symbol => by
    show t.interner.texts[symbol]? = _
    rw [← Array.getElem?_toList, hrecords.texts]
  refine ⟨length_answers {} updates, fun text symbol hcall => ?_, ?_, hrecords.slots.indexed,
    fun symbol => ?_, ?_, fun symbol ptr i hcall => ?_, hrecords.slots.size_eq,
    fun i slot hslot => ⟨?_,
      hrecords.slots.written i slot hslot, hrecords.slots.warned i slot hslot⟩⟩
  · have htext := getElem?_of_intern h hcall
    refine ⟨htext, (hresolve symbol).trans htext, fun text' symbol' hcall' => ?_⟩
    have htext' := getElem?_of_intern h hcall'
    constructor
    · rintro rfl
      exact Option.some.inj (htext.symm.trans htext')
    · rintro rfl
      -- A text stands in the list of texts once.
      exact (List.getElem?_inj (List.getElem?_eq_some_iff.mp htext).1 (nodup_eraseDups _)).mp
        (htext.trans htext'.symm)
  · rw [Interner.size, ← Array.length_toList, hrecords.texts]
  · rw [hrecords.slots.lookup?_eq_none_iff, mem_filterMap_symbol?, not_exists]
  · rintro before symbol ptr after rfl hfirst
    have hnew : symbol ∉ before.filterMap symbol? := by
      rwa [mem_filterMap_symbol?, not_exists]
    -- What comes behind the first registration of a symbol leaves its slot.
    obtain ⟨hanswer, hlookup, slot, hslot⟩ := exists_slot_of_first h hnew
    exact ⟨_, slot, rfl, hanswer, hlookup, hslot⟩
  · exact hrecords.slots.lookup?_eq_some_iff.mpr (getElem?_of_register h hcall)
  · exact hrecords.slots.indexed.lookup?_symbol hslot

/-- The second symbol is registered first, and once more with another pointer. -/
theorem tables_keep_first_sample :
    let before : List Update := [.intern "x", .intern "X"]
    let after : List Update :=
      [.markWarned 0, .register 0 (.inst 1), .register 1 (.inst 2), .markWritten 1]
    let t := (performAll {} (before ++ .register 1 (.inst 0) :: after)).2
    AllApply {} (before ++ .register 1 (.inst 0) :: after) ∧
      ∃ i slot, t.slots.lookup? 1 = some i ∧ t.slots.get? i = some slot ∧ slot.symbol = 1 ∧
        slot.ptr = .inst 0 := by
  intro before after t
  have happly : AllApply {} (before ++ .register 1 (.inst 0) :: after) := by decide +kernel
  -- Symbol 1 is registered twice, and the slot it leads to is the first one.
  obtain ⟨i, slot, -, -, hslot⟩ :=
    (tables_keep_first _ happly).2.2.2.2.2.1 before 1 (.inst 0) after rfl (by simp [before])
  exact ⟨happly, i, slot, hslot⟩

end Straightline
