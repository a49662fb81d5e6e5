import Straightline.Proofs.Emission.Changes

/-!
# Names, slots and code

A compilation keeps the names of its variables, their slots and the code in tables of their own.

* `Compilation.Matched` says that the tables are in step: one slot and one `alloca` for each name
  that was asked for, in the order in which the names first came.
* `Compilation.Recorded` says that the flags of a slot tell what the code does to it.
* Each is kept by every elementary change, and so by requests in a row, whether they succeed or
  fail.
-/

namespace Straightline

/-! ### What code does to slots -/

namespace Kind

/-- Whether an instruction reserves a slot. -/
def isAlloca : Kind → Bool
  | alloca _ => true
  | _ => false

/-- Whether an instruction stores through a pointer. -/
def storesTo (ptr : Operand) : Kind → Bool
  | store _ p => p = ptr
  | _ => false

/-- Whether an instruction loads through a pointer. -/
def loadsFrom (ptr : Operand) : Kind → Bool
  | load _ p => p = ptr
  | _ => false

/-- Whether an instruction stores or loads through a pointer. -/
def accesses (ptr : Operand) (kind : Kind) : Bool := kind.storesTo ptr || kind.loadsFrom ptr

@[simp] theorem storesTo_store (value p ptr : Operand) :
    (store value p).storesTo ptr = decide (p = ptr) := rfl

@[simp] theorem storesTo_load (ty : Ty) (p ptr : Operand) : (load ty p).storesTo ptr = false := rfl

@[simp] theorem loadsFrom_load (ty : Ty) (p ptr : Operand) :
    (load ty p).loadsFrom ptr = decide (p = ptr) := rfl

@[simp] theorem loadsFrom_store (value p ptr : Operand) :
    (store value p).loadsFrom ptr = false := rfl

/-- An instruction accesses a pointer iff it stores to it or loads from it. -/
theorem accesses_eq_false {ptr : Operand} {kind : Kind} :
    kind.accesses ptr = false ↔ kind.storesTo ptr = false ∧ kind.loadsFrom ptr = false :=
  Bool.or_eq_false_iff

theorem isAlloca_of_isPlain {kind : Kind} (h : kind.isPlain = true) : kind.isAlloca = false := by
  cases kind with
  | alloca => cases h
  | _ => rfl

/-- An instruction that only computes accesses no pointer. -/
theorem accesses_of_isPlain {kind : Kind} (h : kind.isPlain = true) (ptr : Operand) :
    kind.accesses ptr = false := by
  cases kind with
  | load | store => cases h
  | _ => rfl

end Kind

/-- `LoadsEarly ptr code`: there is a load through `ptr` without a store through it in front. -/
def LoadsEarly (ptr : Operand) (code : List Kind) : Prop :=
  ∃ before kind after, code = before ++ kind :: after ∧ kind.loadsFrom ptr = true ∧
    ∀ other ∈ before, other.storesTo ptr = false

/-- One more instruction loads early iff it loads and nothing was stored before. -/
theorem loadsEarly_append_singleton {ptr : Operand} {code : List Kind} {kind : Kind} :
    LoadsEarly ptr (code ++ [kind]) ↔
      LoadsEarly ptr code ∨ kind.loadsFrom ptr = true ∧
      ∀ other ∈ code, other.storesTo ptr = false := by
  constructor
  · rintro ⟨before, load, after, heq, hload, hbefore⟩
    rcases exists_append_singleton_iff.mp ⟨after, heq⟩ with ⟨after, rfl⟩ | ⟨rfl, rfl⟩
    · exact .inl ⟨before, load, after, rfl, hload, hbefore⟩
    · exact .inr ⟨hload, hbefore⟩
  · rintro (⟨before, load, after, rfl, hload, hbefore⟩ | ⟨hload, hcode⟩)
    · obtain ⟨after, heq⟩ := exists_append_singleton_iff.mpr (.inl ⟨after, rfl⟩)
      exact ⟨before, load, after, heq, hload, hbefore⟩
    · exact ⟨code, kind, [], rfl, hload, hcode⟩

namespace Body

/-- What the instructions of a body do, in order. -/
def code (b : Body) : List Kind := b.listing.map (·.2.kind)

/-- The indices of the instructions that reserve a slot, in order. -/
def allocas (b : Body) : List Nat := (b.listing.filter (·.2.kind.isAlloca)).map (·.1)

variable {b : Body}

/-- `push` adds to the end of the code. -/
theorem IsStraight.code_push (h : b.IsStraight) (kind : Kind) (ty : Ty) (hint : String) :
    (b.push 0 kind ty hint).code = b.code ++ [kind] := by
  obtain ⟨name, hlisting⟩ := h.listing_push kind ty hint
  rw [code, code, hlisting, List.map_append]
  rfl

/-- `push` adds an `alloca` if the instruction is one. -/
theorem IsStraight.allocas_push (h : b.IsStraight) (kind : Kind) (ty : Ty) (hint : String) :
    (b.push 0 kind ty hint).allocas =
      b.allocas ++ if kind.isAlloca then [b.instructions.size] else [] := by
  obtain ⟨name, hlisting⟩ := h.listing_push kind ty hint
  rw [allocas, allocas, hlisting, List.filter_append, List.map_append]
  cases hkind : kind.isAlloca <;> simp [hkind]

/-- The listing of a single block has the indices in order. -/
theorem IsStraight.indices (h : b.IsStraight) :
    b.listing.map (·.1) = List.range b.instructions.size := by
  rw [h.listing_eq, List.map_map, List.range_eq_range']
  exact List.zipIdx_map_snd 0 b.instructions.toList

/-- The `alloca`s of a single block are among its indices, in order. -/
theorem IsStraight.allocas_sublist (h : b.IsStraight) :
    List.Sublist b.allocas (List.range b.instructions.size) := by
  rw [← h.indices]
  exact List.filter_sublist.map _

end Body

/-! ### One slot for each name -/

namespace SlotTable

/-- `modify` changes nothing of a slot that `f` keeps. -/
theorem map_modify {α : Type} {f : Slot → Slot} {g : Slot → α} (hf : ∀ s, g (f s) = g s)
    (t : SlotTable) (i : Nat) : (t.modify i f).slots.toList.map g = t.slots.toList.map g := by
  apply List.ext_getElem?
  intro j
  rw [modify, List.getElem?_map, List.getElem?_map, Array.toList_modify, List.getElem?_modify]
  cases t.slots.toList[j]? with
  | none => rfl
  | some s => by_cases h : i = j <;> simp [h, hf]

/-- A slot of `t.modify i f` is the changed one, or as it was. -/
theorem eq_or_get?_of_modify {t : SlotTable} {i j : Nat} {f : Slot → Slot} {s u : Slot}
    (hs : t.get? i = some s) (hu : (t.modify i f).get? j = some u) :
    u = f s ∨ i ≠ j ∧ t.get? j = some u := by
  by_cases hij : i = j
  · subst hij
    rw [get?_modify_self hs] at hu
    exact .inl (Option.some.inj hu).symm
  · rw [get?_modify_of_ne hij] at hu
    exact .inr ⟨hij, hu⟩

end SlotTable

section

variable {α : Type} [DecidableEq α] {names : List α} {name : α}

/-- A name that came before is no new name. -/
theorem eraseDups_append_of_mem (h : name ∈ names) :
    (names ++ [name]).eraseDups = names.eraseDups := by
  have hold : [name].removeAll names = [] := by simp [List.removeAll, h]
  rw [List.eraseDups_append, hold, List.eraseDups_nil, List.append_nil]

/-- A name that did not is added behind the others. -/
theorem eraseDups_append_of_not_mem (h : name ∉ names) :
    (names ++ [name]).eraseDups = names.eraseDups ++ [name] := by
  have hnew : [name].removeAll names = [name] := by simp [List.removeAll, h]
  rw [List.eraseDups_append, hnew]
  rfl

end

namespace Compilation

/-- `c.Matched names`: the texts of `c` are the names that were asked for, without repetitions, and
    slot by slot there is one symbol and one `alloca`. -/
structure Matched (c : Compilation) (names : List String) : Prop where
  straight : c.main.IsStraight
  texts : c.interner.texts.toList = names.eraseDups
  symbols : c.slots.slots.toList.map (·.symbol) = List.range c.interner.texts.size
  ptrs : c.slots.slots.toList.map (·.ptr) = c.main.allocas.map .inst

variable {c c' : Compilation} {names more : List String}

theorem matched_new (options : Options) : Matched { options } [] := ⟨rfl, rfl, rfl, rfl⟩

/-- An instruction that reserves nothing leaves names and slots matched. -/
theorem Matched.push (h : c.Matched names) {kind : Kind} (hkind : kind.isAlloca = false) (ty : Ty)
    (hint : String) : (c.push kind ty hint).Matched names := by
  refine ⟨h.straight.push kind ty hint, h.texts, h.symbols, ?_⟩
  rw [Compilation.push, h.straight.allocas_push, hkind]
  simpa using h.ptrs

/-- Marking a slot leaves names and slots matched. -/
theorem Matched.modify (h : c.Matched names) (i : Nat) {f : Slot → Slot}
    (hsymbol : ∀ s, (f s).symbol = s.symbol) (hptr : ∀ s, (f s).ptr = s.ptr) :
    Matched { c with slots := c.slots.modify i f } names :=
  ⟨h.straight, h.texts, (SlotTable.map_modify hsymbol _ i).trans h.symbols,
    (SlotTable.map_modify hptr _ i).trans h.ptrs⟩

/-- A name has a text iff it was asked for. -/
theorem Matched.mem_texts_iff (h : c.Matched names) (name : String) :
    name ∈ c.interner.texts ↔ name ∈ names := by
  rw [← Array.mem_toList_iff, h.texts, List.mem_eraseDups]

/-- An elementary change keeps names, slots and code matched. -/
theorem Change.matched (hchange : c.Change more c') (h : c.Matched names) :
    c'.Matched (names ++ more) := by
  cases hchange with
  | report | constant | printf =>
    rw [List.append_nil]
    exact ⟨h.straight, h.texts, h.symbols, h.ptrs⟩
  | compute ty hint hkind =>
    rw [List.append_nil]
    exact h.push (Kind.isAlloca_of_isPlain hkind) ty hint
  | @find name hname =>
    refine { h with texts := ?_ }
    rw [eraseDups_append_of_mem ((h.mem_texts_iff name).mp hname)]
    exact h.texts
  | @allocate name hname =>
    -- The name, the slot and the `alloca` are all added at the end.
    refine ⟨h.straight.push _ _ _, ?_, ?_, ?_⟩
    · rw [eraseDups_append_of_not_mem (mt (h.mem_texts_iff name).mpr hname), Array.toList_push,
        h.texts]
    · rw [SlotTable.add, Array.toList_push, List.map_append, h.symbols, Array.size_push,
        List.range_succ]
      rfl
    · rw [SlotTable.add, Array.toList_push, List.map_append, h.ptrs]
      show _ = (c.main.push 0 _ _ _).allocas.map Operand.inst
      rw [h.straight.allocas_push, List.map_append]
      rfl
  | store value hslot =>
    rw [List.append_nil]
    exact (h.push rfl _ "").modify _ (fun _ => rfl) fun _ => rfl
  | load hint hslot hready =>
    rw [List.append_nil]
    exact h.push rfl _ hint
  | warn hint hslot hwritten hpolicy =>
    rw [List.append_nil]
    exact (h.push rfl _ hint).modify _ (fun _ => rfl) fun _ => rfl

/-- Changes in a row do so too. -/
theorem Evolves.matched (hevolves : c.Evolves more c') (h : c.Matched names) :
    c'.Matched (names ++ more) := by
  induction hevolves with
  | refl => simpa using h
  | change _ hchange ih =>
    rw [← List.append_assoc]
    exact hchange.matched ih

/-- There are as many slots as names. -/
theorem Matched.size_slots (h : c.Matched names) : c.slots.size = names.eraseDups.length := by
  have hlength := congrArg List.length h.symbols
  rw [List.length_map, List.length_range, ← Array.length_toList, h.texts] at hlength
  exact hlength

/-- There are as many `alloca`s as names. -/
theorem Matched.length_allocas (h : c.Matched names) :
    c.main.allocas.length = names.eraseDups.length := by
  have hlength := congrArg List.length h.ptrs
  rw [List.length_map, List.length_map] at hlength
  rw [← hlength, ← h.size_slots]
  rfl

/-- The pointer of a slot is the `alloca` at the same position. -/
theorem Matched.map_ptr (h : c.Matched names) (i : Nat) :
    (c.slots.get? i).map (·.ptr) = c.main.allocas[i]?.map .inst := by
  rw [SlotTable.get?, ← Array.getElem?_toList, ← List.getElem?_map, ← List.getElem?_map, h.ptrs]

/-- The variable of a slot is the name at the same position. -/
theorem Matched.variableName?_eq (h : c.Matched names) (i : Nat) :
    c.variableName? i = names.eraseDups[i]? := by
  rw [variableName?, ← h.texts]
  cases hs : c.slots.get? i with
  | none =>
    have hle : c.slots.size ≤ i := Array.getElem?_eq_none_iff.mp hs
    rw [h.size_slots, ← h.texts] at hle
    rw [List.getElem?_eq_none hle]
    rfl
  | some s =>
    -- The symbol of a slot is its position.
    have hsymbol : (c.slots.slots.toList.map (·.symbol))[i]? = some s.symbol := by
      rw [List.getElem?_map, Array.getElem?_toList]
      exact congrArg (Option.map (·.symbol)) hs
    rw [h.symbols] at hsymbol
    obtain ⟨hlt, hi⟩ := List.getElem?_eq_some_iff.mp hsymbol
    rw [List.getElem_range] at hi
    rw [Option.bind_some, Interner.resolve?, ← hi, Array.getElem?_toList]

/-! ### Flags tell what code does -/

/-- Two slots do not share a pointer. -/
theorem Matched.index_unique (h : c.Matched names) {i j : Nat} {s t : Slot}
    (hs : c.slots.get? i = some s) (ht : c.slots.get? j = some t) (hptr : s.ptr = t.ptr) :
    i = j := by
  -- Pointers are the indices of instructions, and those come once each.
  have hnodup : (c.slots.slots.toList.map (·.ptr)).Nodup := by
    rw [h.ptrs]
    refine (h.straight.allocas_sublist.nodup List.nodup_range).map fun _ _ hinst => ?_
    exact Operand.inst.inj hinst
  rw [SlotTable.get?, ← Array.getElem?_toList] at hs ht
  have hi : (c.slots.slots.toList.map (·.ptr))[i]? = some s.ptr := by
    rw [List.getElem?_map, hs]; rfl
  have hj : (c.slots.slots.toList.map (·.ptr))[j]? = some t.ptr := by
    rw [List.getElem?_map, ht]; rfl
  exact (List.getElem?_inj (List.getElem?_eq_some_iff.mp hi).1 hnodup).mp (by rw [hi, hj, hptr])

/-- No slot lies where the next instruction will be. -/
theorem Matched.ptr_ne (h : c.Matched names) {i : Nat} {s : Slot} (hs : c.slots.get? i = some s) :
    s.ptr ≠ .inst c.main.instructions.size := by
  intro hptr
  have hmem : s.ptr ∈ c.slots.slots.toList.map (·.ptr) :=
    List.mem_map_of_mem (Array.mem_toList_iff.mpr (Array.mem_of_getElem? hs))
  rw [h.ptrs, hptr] at hmem
  obtain ⟨k, hk, hinst⟩ := List.mem_map.mp hmem
  have hlt := List.mem_range.mp (h.straight.allocas_sublist.subset hk)
  obtain rfl := Operand.inst.inj hinst
  exact Nat.lt_irrefl _ hlt

end Compilation

/-- `s.Records policy code`: the flags of `s` tell what `code` does to it under `policy`. -/
structure Slot.Records (s : Slot) (policy : ReadPolicy) (code : List Kind) : Prop where
  written : s.written = true ↔ ∃ kind ∈ code, kind.storesTo s.ptr = true
  warned : s.warned = true ↔ LoadsEarly s.ptr code
  policy : s.warned = true → policy = .preserve

namespace Slot.Records

variable {s : Slot} {policy : ReadPolicy} {code : List Kind}

/-- A slot that no code accesses is not marked. -/
theorem of_untouched {symbol : Nat} {ptr : Operand} (h : ∀ kind ∈ code, kind.accesses ptr = false) :
    Records { symbol, ptr } policy code := by
  refine ⟨⟨Bool.noConfusion, ?_⟩, ⟨Bool.noConfusion, ?_⟩, Bool.noConfusion⟩
  · rintro ⟨kind, hkind, hstores⟩
    rw [(Kind.accesses_eq_false.mp (h kind hkind)).1] at hstores
    cases hstores
  · rintro ⟨before, kind, after, rfl, hloads, -⟩
    rw [(Kind.accesses_eq_false.mp (h kind (by simp))).2] at hloads
    cases hloads

/-- Code that does not access the slot changes nothing. -/
theorem other (h : s.Records policy code) {kind : Kind} (hkind : kind.accesses s.ptr = false) :
    s.Records policy (code ++ [kind]) := by
  obtain ⟨hstores, hloads⟩ := Kind.accesses_eq_false.mp hkind
  refine ⟨?_, ?_, h.policy⟩
  · rw [h.written]
    simp [or_and_right, exists_or, hstores]
  · rw [h.warned, loadsEarly_append_singleton, hloads]
    simp

/-- A store marks the slot as written. It makes no load an early one. -/
theorem store (h : s.Records policy code) (value : Operand) :
    Records { s with written := true } policy (code ++ [.store value s.ptr]) := by
  refine ⟨?_, ?_, h.policy⟩
  · simp
  · rw [loadsEarly_append_singleton]
    simpa using h.warned

/-- A load from a slot that was written or warned about is no new early one. -/
theorem load (h : s.Records policy code) (hready : (s.written || s.warned) = true) :
    s.Records policy (code ++ [.load .double s.ptr]) := by
  refine ⟨?_, ?_, h.policy⟩
  · rw [h.written]
    simp [or_and_right, exists_or]
  · rw [h.warned, loadsEarly_append_singleton]
    refine ⟨.inl, ?_⟩
    -- A load that comes early was let pass by the mark, so the flag says so already.
    rintro (hearly | ⟨-, hunwritten⟩)
    · exact hearly
    · rcases Bool.or_eq_true_iff.mp hready with hwritten | hwarned
      · obtain ⟨kind, hkind, hstores⟩ := h.written.mp hwritten
        rw [hunwritten kind hkind] at hstores
        cases hstores
      · exact h.warned.mp hwarned

/-- The first load from an unwritten slot comes with a warning. -/
theorem warn (h : s.Records policy code) (hwritten : s.written = false)
    (hpolicy : policy = .preserve) :
    Records { s with warned := true } policy (code ++ [.load .double s.ptr]) := by
  refine ⟨?_, ?_, fun _ => hpolicy⟩
  · rw [h.written]
    simp [or_and_right, exists_or]
  · have hunwritten : ∀ kind ∈ code, kind.storesTo s.ptr = false := by
      intro kind hkind
      by_contra hstores
      rw [h.written.mpr ⟨kind, hkind, by simpa using hstores⟩] at hwritten
      cases hwritten
    rw [loadsEarly_append_singleton]
    simpa using Or.inr hunwritten

end Slot.Records

namespace Compilation

/-- `c.Recorded`: the flags of all slots tell what the code does, and the code accesses nothing but
    slots. -/
structure Recorded (c : Compilation) : Prop where
  flags : ∀ (i : Nat) (s : Slot), c.slots.get? i = some s → s.Records c.options.reads c.main.code
  touched : ∀ kind ∈ c.main.code, ∀ ptr, kind.accesses ptr = true →
    ∃ i s, c.slots.get? i = some s ∧ s.ptr = ptr

/-- A new compilation has no slots and no code. -/
theorem recorded_new (options : Options) : Recorded { options } := by
  constructor
  · intro i s hs
    cases hs
  · intro kind hkind
    cases hkind

variable {c c' : Compilation} {names more : List String}

/-- What was accessed stays among the slots. -/
theorem Recorded.exists_slot (h : c.Recorded) {t : SlotTable} (ht : c.slots.Extends t) {kind : Kind}
    (hkind : kind ∈ c.main.code) {ptr : Operand} (hptr : kind.accesses ptr = true) :
    ∃ i s, t.get? i = some s ∧ s.ptr = ptr := by
  obtain ⟨i, s, hs, rfl⟩ := h.touched kind hkind ptr hptr
  obtain ⟨s', hs', hext⟩ := ht i s hs
  exact ⟨i, s', hs', hext.ptr⟩

/-- An instruction that accesses no slot keeps the flags right. -/
theorem Recorded.push (h : c.Recorded) (hc : c.main.IsStraight) {kind : Kind}
    (hkind : ∀ ptr, kind.accesses ptr = false) (ty : Ty) (hint : String) :
    (c.push kind ty hint).Recorded := by
  have hcode : (c.push kind ty hint).main.code = c.main.code ++ [kind] := hc.code_push kind ty hint
  constructor
  · intro i s hs
    rw [hcode]
    exact (h.flags i s hs).other (hkind s.ptr)
  · intro other hother ptr hptr
    rw [hcode, List.mem_append, List.mem_singleton] at hother
    rcases hother with hother | rfl
    · exact h.touched other hother ptr hptr
    · rw [hkind ptr] at hptr
      cases hptr

/-- A new slot whose pointer is new keeps the flags right. -/
theorem Recorded.register (h : c.Recorded) (symbol : Nat) {ptr : Operand}
    (hptr : ∀ (i : Nat) (s : Slot), c.slots.get? i = some s → s.ptr ≠ ptr) :
    Recorded { c with slots := c.slots.add { symbol, ptr } } := by
  constructor
  · intro i s hs
    rw [SlotTable.get?_add] at hs
    split at hs
    · obtain rfl := Option.some.inj hs
      -- What was touched so far lies in the other slots.
      refine Slot.Records.of_untouched fun kind hkind => ?_
      by_contra haccess
      obtain ⟨i, s, hs, hs'⟩ := h.touched kind hkind ptr (by simpa using haccess)
      exact hptr i s hs hs'
    · exact h.flags i s hs
  · intro kind hkind ptr' hptr'
    exact h.exists_slot (c.slots.extends_add _) hkind hptr'

/-- An instruction that accesses one slot keeps the flags right, if the flags of that slot tell it
    and the others keep theirs. -/
theorem Recorded.touch (h : c.Recorded) (hm : c.Matched names) {i : Nat} {s s' : Slot}
    {t : SlotTable} (hs : c.slots.get? i = some s) (hextends : c.slots.Extends t)
    (ht : ∀ (j : Nat) (u : Slot), t.get? j = some u → u = s' ∨ i ≠ j ∧ c.slots.get? j = some u)
    {kind : Kind} (hkind : ∀ ptr, kind.accesses ptr = true → ptr = s.ptr)
    (hrecords : s'.Records c.options.reads (c.main.code ++ [kind])) (ty : Ty) (hint : String) :
    Recorded { c.push kind ty hint with slots := t } := by
  have hcode : (c.push kind ty hint).main.code = c.main.code ++ [kind] :=
    hm.straight.code_push kind ty hint
  constructor
  · intro j u hu
    show u.Records c.options.reads (c.push kind ty hint).main.code
    rw [hcode]
    rcases ht j u hu with rfl | ⟨hne, hu⟩
    · exact hrecords
    · -- Another slot has another pointer, so that the instruction is not about it.
      refine (h.flags j u hu).other ?_
      by_contra haccess
      exact hne (hm.index_unique hs hu (hkind u.ptr (by simpa using haccess)).symm)
  · intro other hother ptr hptr
    change other ∈ (c.push kind ty hint).main.code at hother
    rw [hcode, List.mem_append, List.mem_singleton] at hother
    rcases hother with hother | rfl
    · exact h.exists_slot hextends hother hptr
    · obtain ⟨u, hu, hext⟩ := hextends i s hs
      exact ⟨i, u, hu, by rw [hext.ptr, hkind ptr hptr]⟩

/-- An elementary change keeps the flags right. -/
theorem Change.recorded (hchange : c.Change more c') (hm : c.Matched names) (h : c.Recorded) :
    c'.Recorded := by
  -- Only a store and a load access a slot, and each accesses one.
  cases hchange with
  | report | constant | printf => exact ⟨h.flags, h.touched⟩
  | find => exact h
  | compute ty hint hkind => exact h.push hm.straight (Kind.accesses_of_isPlain hkind) ty hint
  | @allocate name hname =>
    have hpush : (c.push (.alloca .double) .ptr name).Recorded :=
      h.push hm.straight (fun _ => rfl) .ptr name
    have hregister := hpush.register c.interner.size fun i s hs => hm.ptr_ne hs
    exact ⟨hregister.flags, hregister.touched⟩
  | @store i s value hs =>
    refine h.touch hm hs (c.slots.extends_markWritten i)
      (fun j u hu => SlotTable.eq_or_get?_of_modify hs hu) ?_ ((h.flags i s hs).store value) _ _
    simp [Kind.accesses, eq_comm]
  | @load i s hint hs hready =>
    refine h.touch hm hs (.refl _) (fun j u hu => ?_) ?_ ((h.flags i s hs).load hready) _ hint
    · by_cases hij : i = j
      · exact .inl (Option.some.inj (hu.symm.trans (hij ▸ hs)))
      · exact .inr ⟨hij, hu⟩
    · simp [Kind.accesses, eq_comm]
  | @warn i s hint hs hwritten hpolicy =>
    refine h.touch hm hs (c.slots.extends_markWarned i)
      (fun j u hu => SlotTable.eq_or_get?_of_modify hs hu) ?_
      ((h.flags i s hs).warn hwritten hpolicy) _ hint
    simp [Kind.accesses, eq_comm]

/-- Changes in a row keep the flags right. -/
theorem Evolves.recorded (hevolves : c.Evolves more c') (hm : c.Matched names) (h : c.Recorded) :
    c'.Recorded := by
  -- That a new slot is fresh and that no two slots share a pointer is known from the tables.
  induction hevolves with
  | refl => exact h
  | change hbefore hchange ih => exact hchange.recorded (hbefore.matched hm) ih

end Compilation

/-! ### After requests in a row -/

section

open Request

/-- After requests in a row there is one slot and one `alloca` for each name that was asked for, in
    the order in which the names first came. Resolving such a name changes nothing, and no request
    takes anything back, whether it succeeds or fails. -/
theorem slots_match_names (options : Options) (requests : List Request) :
    let c := performAll requests { options }
    let names := (namesOfAll requests { options }).eraseDups
    c.slots.size = names.length ∧ c.main.allocas.length = names.length ∧
      (∀ i, (c.slots.get? i).map (·.ptr) = c.main.allocas[i]?.map .inst ∧
        c.variableName? i = names[i]?) ∧
      (∀ i name, names[i]? = some name →
        ∃ slot, c.slots.get? i = some slot ∧ Emit.resolve name c = (.ok (i, slot), c)) ∧
      ∀ request : Request, c.Extends (request.perform c) := by
  intro c names
  have hbecomes := becomes_performAll requests (Compilation.coherent_new options)
  -- The tables match the names because every request evolves the compilation.
  have hm : c.Matched (namesOfAll requests { options }) :=
    hbecomes.evolves.matched (Compilation.matched_new options)
  refine ⟨hm.size_slots, hm.length_allocas, fun i => ⟨hm.map_ptr i, hm.variableName?_eq i⟩,
    fun i name hname => ?_, fun request => ?_⟩
  · exact Emit.resolve_of_text hbecomes.coherent (hm.texts ▸ hname)
  · exact (request.becomes_perform hbecomes.coherent).evolves.extends hm.straight

/-- Names differ in case, and a script that cannot be read to its end asks for names before that. -/
theorem slots_match_names_sample :
    (performAll [.resolve "x", .call (.read "X"), .script "x = y )"] { options := {} }).slots.size =
      3 :=
  (slots_match_names {} [.resolve "x", .call (.read "X"), .script "x = y )"]).1.trans
  (by decide +kernel)

/-- After requests in a row, a slot is marked as written iff there is a store to it, and as warned
    about iff the policy is `preserve` and a load from it has no store to it in front. Under the
    other policies there is no such load. -/
theorem flags_tell_code (options : Options) (requests : List Request) {i : Nat} {slot : Slot}
    (h : (performAll requests { options }).slots.get? i = some slot) :
    let code := (performAll requests { options }).main.code
    (slot.written = true ↔ ∃ kind ∈ code, kind.storesTo slot.ptr = true) ∧
      (slot.warned = true ↔ options.reads = .preserve ∧ LoadsEarly slot.ptr code) ∧
      (options.reads ≠ .preserve → ∀ before kind after, code = before ++ kind :: after →
        kind.loadsFrom slot.ptr = true → ∃ other ∈ before, other.storesTo slot.ptr = true) := by
  intro code
  have hevolves := (becomes_performAll requests (Compilation.coherent_new options)).evolves
  have hrecorded :=
    hevolves.recorded (Compilation.matched_new options) (Compilation.recorded_new options)
  have hrecords : slot.Records options.reads code := by
    have hflags := hrecorded.flags i slot h
    rwa [hevolves.options] at hflags
  refine ⟨hrecords.written, ⟨fun hwarned => ⟨hrecords.policy hwarned, hrecords.warned.mp hwarned⟩,
    fun hearly => hrecords.warned.mpr hearly.2⟩, fun hpolicy before kind after hcode hloads => ?_⟩
  -- A load without a store in front would have been warned about, which only `preserve` does.
  by_contra hstores
  have hbefore : ∀ other ∈ before, other.storesTo slot.ptr = false := by
    simpa using hstores
  exact hpolicy (hrecords.policy
    (hrecords.warned.mpr ⟨before, kind, after, hcode, hloads, hbefore⟩))

/-- A variable that is stored to only after it was read stays warned about. -/
theorem flags_tell_code_sample :
    let c :=
      performAll [.call (.read "y"), .script "x = y\ny = x"] { options := { reads := .preserve } }
    c.slots.get? 0 = some ⟨0, .inst 0, true, true⟩ ∧ LoadsEarly (.inst 0) c.main.code := by
  intro c
  have hslot : c.slots.get? 0 = some ⟨0, .inst 0, true, true⟩ := by decide +kernel
  exact ⟨hslot, ((flags_tell_code _ _ hslot).2.1.mp rfl).2⟩

end

end Straightline
