import Std.Data.TreeMap
import Straightline.Ir.Instruction

/-!
# Names and their slots

* `Interner` numbers texts in the order in which they first come.
* `SlotTable` gives a numbered name the stack slot that was first registered for it, and records
  whether the slot was written and whether a read of it was warned about. It is an arena of slots
  with an index `byName` into it.
* `SlotTable.Indexed` says that arena and index are inverse to each other, which every update keeps.
-/

namespace Straightline

/-- Texts without repetition; the position of a text is its number. -/
structure Interner where
  texts : Array String := #[]
  deriving DecidableEq

namespace Interner

/-- The number of a text that is known. -/
def find? (t : Interner) (text : String) : Option Nat := t.texts.toList.idxOf? text

/-- The number of a text. A new text gets the next number. -/
def intern (t : Interner) (text : String) : Nat × Interner :=
  match t.find? text with
  | some symbol => (symbol, t)
  | none => (t.texts.size, ⟨t.texts.push text⟩)

/-- The text of a number. -/
def resolve? (t : Interner) (symbol : Nat) : Option String := t.texts[symbol]?

def size (t : Interner) : Nat := t.texts.size

/-- `intern` of a text that is known gives its symbol. -/
theorem intern_of_find?_eq_some {t : Interner} {text : String} {symbol : Nat}
    (h : t.find? text = some symbol) : t.intern text = (symbol, t) := by
  simp [intern, h]

/-- `intern` of a new text puts it behind the others. -/
theorem intern_of_find?_eq_none {t : Interner} {text : String} (h : t.find? text = none) :
    t.intern text = (t.size, ⟨t.texts.push text⟩) := by
  simp [intern, h, size]

end Interner

/-- A stack slot of a variable. -/
structure Slot where
  symbol : Nat
  ptr : Operand
  /-- Whether something was stored to it. -/
  written : Bool := false
  /-- Whether a read before any store was warned about. -/
  warned : Bool := false
  deriving DecidableEq

/-- The slots of the variables. -/
structure SlotTable where
  /-- The slots, in the order of registration. -/
  slots : Array Slot := #[]
  /-- The index of the slot of each name that has one. -/
  byName : Std.TreeMap Nat Nat := {}

namespace SlotTable

def size (t : SlotTable) : Nat := t.slots.size

/-- The index of the slot of a name. -/
def lookup? (t : SlotTable) (symbol : Nat) : Option Nat := t.byName[symbol]?

def get? (t : SlotTable) (i : Nat) : Option Slot := t.slots[i]?

/-- Add a slot behind all others and enter it under its name. -/
def add (t : SlotTable) (slot : Slot) : SlotTable where
  slots := t.slots.push slot
  byName := t.byName.insert slot.symbol t.slots.size

/-- Change the slot at an index. The names stay entered as they are. -/
def modify (t : SlotTable) (i : Nat) (f : Slot → Slot) : SlotTable :=
  { t with slots := t.slots.modify i f }

/-- Give a name a slot. A name that has one keeps it. -/
def register (t : SlotTable) (symbol : Nat) (ptr : Operand) : Nat × SlotTable :=
  match t.lookup? symbol with
  | some i => (i, t)
  | none => (t.slots.size, t.add { symbol, ptr })

/-- The table after a store to the slot. -/
def markWritten (t : SlotTable) (i : Nat) : SlotTable :=
  t.modify i fun s => { s with written := true }

/-- The table after a warning about the slot. -/
def markWarned (t : SlotTable) (i : Nat) : SlotTable :=
  t.modify i fun s => { s with warned := true }

@[simp] theorem size_add (t : SlotTable) (slot : Slot) : (t.add slot).size = t.size + 1 := by
  simp [size, add]

@[simp] theorem size_modify (t : SlotTable) (i : Nat) (f : Slot → Slot) :
    (t.modify i f).size = t.size := by
  simp [size, modify]

@[simp] theorem size_markWritten (t : SlotTable) (i : Nat) : (t.markWritten i).size = t.size :=
  t.size_modify i _

@[simp] theorem size_markWarned (t : SlotTable) (i : Nat) : (t.markWarned i).size = t.size :=
  t.size_modify i _

/-- `add` puts the slot behind the others. -/
theorem get?_add (t : SlotTable) (slot : Slot) (i : Nat) :
    (t.add slot).get? i = if i = t.size then some slot else t.get? i := by
  rw [get?, add, Array.getElem?_push]
  rfl

/-- `modify` changes one slot. -/
theorem get?_modify (t : SlotTable) (i j : Nat) (f : Slot → Slot) :
    (t.modify i f).get? j = if i = j then (t.get? j).map f else t.get? j := by
  rw [get?, modify, Array.getElem?_modify]
  rfl

/-- `add` makes the symbol of the slot lead to it. -/
theorem lookup?_add (t : SlotTable) (slot : Slot) (symbol : Nat) :
    (t.add slot).lookup? symbol = if slot.symbol = symbol then some t.size
      else t.lookup? symbol := by
  simp [lookup?, add, size, Std.TreeMap.getElem?_insert]

/-- `register` of a symbol that has a slot gives this slot. -/
theorem register_of_lookup?_eq_some {t : SlotTable} {symbol i : Nat} (ptr : Operand)
    (h : t.lookup? symbol = some i) : t.register symbol ptr = (i, t) := by
  simp [register, h]

/-- `register` of a symbol without a slot adds one. -/
theorem register_of_lookup?_eq_none {t : SlotTable} {symbol : Nat} (ptr : Operand)
    (h : t.lookup? symbol = none) : t.register symbol ptr = (t.size, t.add { symbol, ptr }) := by
  simp [register, h, size]

/-! ### Arena and index -/

/-- `slots` and `byName` are inverse to each other: `byName` leads from a symbol to `i` iff the
    slot at `i` is that of the symbol. -/
def Indexed (t : SlotTable) : Prop :=
  ∀ symbol i, t.lookup? symbol = some i ↔ ∃ slot, t.get? i = some slot ∧ slot.symbol = symbol

/-- The empty table is `Indexed`. -/
theorem indexed_empty : Indexed {} := by
  intro symbol i
  simp [lookup?, get?]

namespace Indexed

variable {t : SlotTable}

/-- The index leads from the symbol of a slot back to the slot. -/
theorem lookup?_symbol (h : t.Indexed) {i : Nat} {slot : Slot} (hslot : t.get? i = some slot) :
    t.lookup? slot.symbol = some i :=
  (h slot.symbol i).mpr ⟨slot, hslot, rfl⟩

/-- A symbol without an entry in the index is that of no slot. -/
theorem symbol_ne (h : t.Indexed) {symbol : Nat} (hnone : t.lookup? symbol = none) {i : Nat}
    {slot : Slot} (hslot : t.get? i = some slot) : slot.symbol ≠ symbol := by
  rintro rfl
  rw [h.lookup?_symbol hslot] at hnone
  cases hnone

/-- A slot of a new symbol goes behind all slots, and only the new symbol leads to it. -/
theorem add (h : t.Indexed) {slot : Slot} (hnew : t.lookup? slot.symbol = none) :
    (t.add slot).Indexed := by
  intro symbol i
  have hend : t.get? t.size = none := Array.getElem?_eq_none (Nat.le_refl _)
  -- No symbol leads to the end of the arena, where the slot will be.
  have hlt : t.lookup? symbol = some i → i ≠ t.size := by
    rintro hi rfl
    obtain ⟨s, hs, -⟩ := (h symbol t.size).mp hi
    rw [hend] at hs
    cases hs
  rw [lookup?_add, get?_add]
  by_cases hsymbol : slot.symbol = symbol
  · -- The symbol of the new slot leads to it, and no other slot has this symbol.
    subst hsymbol
    rw [if_pos rfl]
    constructor
    · rintro hi
      obtain rfl := Option.some.inj hi
      exact ⟨slot, if_pos rfl, rfl⟩
    · rintro ⟨s, hs, heq⟩
      split at hs
      · next hi => rw [hi]
      · exact absurd heq (h.symbol_ne hnew hs)
  · -- Every other symbol leads where it led.
    rw [if_neg hsymbol]
    constructor
    · intro hi
      rw [if_neg (hlt hi)]
      exact (h symbol i).mp hi
    · rintro ⟨s, hs, heq⟩
      split at hs
      · obtain rfl := Option.some.inj hs
        exact absurd heq hsymbol
      · exact (h symbol i).mpr ⟨s, hs, heq⟩

/-- What keeps the symbol of a slot may change the rest of it. -/
theorem modify (h : t.Indexed) (i : Nat) {f : Slot → Slot} (hf : ∀ s, (f s).symbol = s.symbol) :
    (t.modify i f).Indexed := by
  intro symbol j
  rw [get?_modify]
  refine (h symbol j).trans ?_
  split
  · cases t.get? j <;> simp [hf]
  · rfl

/-- `markWritten` keeps a table `Indexed`. -/
theorem markWritten (h : t.Indexed) (i : Nat) : (t.markWritten i).Indexed := h.modify i fun _ => rfl

/-- `markWarned` keeps a table `Indexed`. -/
theorem markWarned (h : t.Indexed) (i : Nat) : (t.markWarned i).Indexed := h.modify i fun _ => rfl

end Indexed

end SlotTable

end Straightline
