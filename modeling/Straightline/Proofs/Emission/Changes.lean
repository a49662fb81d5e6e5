import Straightline.Proofs.Emission.Calls
import Straightline.Proofs.Emission.Listing

/-!
# Changes of a compilation

Every step of a compilation, whether it succeeds or fails, is a row of a few elementary changes.

* `Compilation.Change` are the elementary changes, and `Compilation.Evolves` are rows of them, with
  the names that were asked for on the way.
* `Compilation.Extends` says that everything stays and things are only added; `Evolves.extends` says
  that every change is of that kind.
* `Request` is what can be asked of a compilation, with any operands. `Request.becomes_performAll`
  says that requests in a row are changes in a row, whether they succeed or fail.
-/

namespace Straightline

/-! ### Elementary changes -/

namespace Kind

/-- Whether an instruction only computes: it has nothing to do with slots and does not end a
    block. -/
def isPlain : Kind → Bool
  | binary .. => true
  | compare .. => true
  | widen _ => true
  | call .. => true
  | _ => false

theorem isTerminator_of_isPlain {kind : Kind} (h : kind.isPlain = true) :
    kind.isTerminator = false := by
  cases kind with
  | ret => cases h
  | _ => rfl

end Kind

namespace Operator

theorem isPlain_kind (op : Operator) (x y : Operand) : (op.kind x y).isPlain = true := by
  cases op <;> rfl

end Operator

namespace Compilation

/-- `c` with one more instruction at the end of `main`. -/
def push (c : Compilation) (kind : Kind) (ty : Ty) (hint : String) : Compilation :=
  { c with main := c.main.push 0 kind ty hint }

/-- `Change c names c'`: an elementary change leads from `c` to `c'` and asks for `names`. A slot is
    only loaded from if it was written or warned about; a load that does neither comes with the
    warning. -/
inductive Change (c : Compilation) : List String → Compilation → Prop
  | report (e : Event) : Change c [] { c with log := c.log.push e }
  | constant (bytes : ByteArray) : Change c [] { c with constants := c.constants.push bytes }
  | printf : Change c [] { c with declaresPrintf := true }
  | compute {kind : Kind} (ty : Ty) (hint : String) : kind.isPlain = true →
    Change c [] (c.push kind ty hint)
  | find {name : String} : name ∈ c.interner.texts → Change c [name] c
  | allocate {name : String} : name ∉ c.interner.texts →
    Change c [name]
      { c.push (.alloca .double) .ptr name with
        interner := ⟨c.interner.texts.push name⟩
        slots := c.slots.add { symbol := c.interner.size, ptr := .inst c.main.instructions.size } }
  | store {i : Nat} {slot : Slot} (value : Operand) : c.slots.get? i = some slot →
    Change c [] { c.push (.store value slot.ptr) .void "" with slots := c.slots.markWritten i }
  | load {i : Nat} {slot : Slot} (hint : String) : c.slots.get? i = some slot →
    (slot.written || slot.warned) = true →
      Change c [] (c.push (.load .double slot.ptr) .double hint)
  | warn {i : Nat} {slot : Slot} (hint : String) : c.slots.get? i = some slot →
    slot.written = false → c.options.reads = .preserve →
      Change c []
        { c.push (.load .double slot.ptr) .double hint with slots := c.slots.markWarned i }

/-- `Evolves c names c'`: elementary changes in a row lead from `c` to `c'`. They ask for
    `names`. -/
inductive Evolves (c : Compilation) : List String → Compilation → Prop
  | refl : Evolves c [] c
  | change {names more : List String} {c' c'' : Compilation} :
    Evolves c names c' → Change c' more c'' →
    Evolves c (names ++ more) c''

variable {c c' c'' : Compilation} {names more : List String}

/-- A change is an evolution of one change. -/
theorem Change.evolves (h : c.Change names c') : c.Evolves names c' := by
  simpa using Evolves.refl.change h

/-- Changes in a row ask for the names of both rows. -/
theorem Evolves.trans (h : c.Evolves names c') (h' : c'.Evolves more c'') :
    c.Evolves (names ++ more) c'' := by
  -- A row grows at its end, so the induction is on the second one.
  induction h' with
  | refl => simpa using h
  | change _ hchange ih =>
    rw [← List.append_assoc]
    exact ih.change hchange

end Compilation

/-! ### Bodies of one block -/

namespace Body

/-- The instructions of all blocks, in order, with their indices. -/
def listing (b : Body) : List (Nat × Instruction) := b.blocks.toList.flatMap b.contents

/-- `b.IsStraight`: the body is a single block, with all instructions in their order. -/
def IsStraight (b : Body) : Prop := b.blocks = #[⟨"entry", Array.range b.instructions.size⟩]

/-- `Body.push` adds an instruction behind all others. -/
theorem instructions_push (b : Body) (block : Nat) (kind : Kind) (ty : Ty) (hint : String) :
    ∃ name, (b.push block kind ty hint).instructions = b.instructions.push ⟨kind, ty, name⟩ :=
  ⟨_, rfl⟩

variable {b : Body}

/-- A single block stays one. -/
theorem IsStraight.push (h : b.IsStraight) (kind : Kind) (ty : Ty) (hint : String) :
    (b.push 0 kind ty hint).IsStraight := by
  obtain ⟨name, hname⟩ := b.instructions_push 0 kind ty hint
  have hblocks : (b.push 0 kind ty hint).blocks = b.blocks.modify 0 fun k =>
    { k with instructions := k.instructions.push b.instructions.size } := rfl
  rw [IsStraight, hblocks, hname, h, Array.size_push, Array.range_succ]
  simp

/-- In a single block, the place of an instruction is its index. -/
theorem IsStraight.listing_eq (h : b.IsStraight) :
    b.listing = b.instructions.toList.zipIdx.map Prod.swap := by
  rw [← filterMap_range_getElem?, listing, h]
  simp [contents]

/-- `Body.push` adds to the end of the listing. -/
theorem IsStraight.listing_push (h : b.IsStraight) (kind : Kind) (ty : Ty) (hint : String) :
    ∃ name, (b.push 0 kind ty hint).listing =
      b.listing ++ [(b.instructions.size, ⟨kind, ty, name⟩)] := by
  obtain ⟨name, hname⟩ := b.instructions_push 0 kind ty hint
  refine ⟨name, ?_⟩
  rw [(h.push kind ty hint).listing_eq, h.listing_eq, hname]
  simp [List.zipIdx_append]

end Body

/-! ### Nothing is taken back -/

/-- A body with more instructions behind those it has. -/
structure Body.Extends (b b' : Body) : Prop where
  instructions : b.instructions.toList <+: b'.instructions.toList
  listing : b.listing <+: b'.listing

/-- The same function, with more instructions if it has a body. -/
structure Function.Extends (f f' : Function) : Prop where
  prototype : f'.prototype = f.prototype
  body : Option.Rel Body.Extends f.body f'.body

/-- A module with more behind everything it has. -/
structure Module.Extends (m m' : Module) : Prop where
  name : m'.name = m.name
  globals : m.globals.toList <+: m'.globals.toList
  functions : ∀ (i : Nat) (f : Function), m.functions[i]? = some f →
    ∃ f', m'.functions[i]? = some f' ∧ f.Extends f'

/-- The same slot; what was recorded of it stays so. -/
structure Slot.Extends (s s' : Slot) : Prop where
  symbol : s'.symbol = s.symbol
  ptr : s'.ptr = s.ptr
  written : s.written = true → s'.written = true
  warned : s.warned = true → s'.warned = true

/-- A table with more slots behind those it has. -/
def SlotTable.Extends (t t' : SlotTable) : Prop :=
  ∀ (i : Nat) (s : Slot), t.get? i = some s → ∃ s', t'.get? i = some s' ∧ s.Extends s'

/-- A compilation with more behind everything it has. -/
structure Compilation.Extends (c c' : Compilation) : Prop where
  module : c.module.Extends c'.module
  slots : c.slots.Extends c'.slots
  names : ∀ (i : Nat) (name : String), c.variableName? i = some name →
    c'.variableName? i = some name

theorem toList_prefix_push {α : Type} (xs : Array α) (x : α) :
    xs.toList <+: (xs.push x).toList := by
  rw [Array.toList_push]
  exact List.prefix_append _ _

theorem Body.Extends.refl (b : Body) : b.Extends b := ⟨List.prefix_refl _, List.prefix_refl _⟩

theorem Body.Extends.trans {b b' b'' : Body} (h : b.Extends b') (h' : b'.Extends b'') :
    b.Extends b'' :=
  ⟨h.instructions.trans h'.instructions, h.listing.trans h'.listing⟩

/-- `Body.push` extends a body of a single block. -/
theorem Body.IsStraight.extends_push {b : Body} (h : b.IsStraight) (kind : Kind) (ty : Ty)
    (hint : String) : b.Extends (b.push 0 kind ty hint) := by
  obtain ⟨name, hname⟩ := b.instructions_push 0 kind ty hint
  obtain ⟨name', hname'⟩ := h.listing_push kind ty hint
  constructor
  · rw [hname]
    exact toList_prefix_push _ _
  · rw [hname']
    exact List.prefix_append _ _

theorem Function.Extends.refl (f : Function) : f.Extends f := by
  refine ⟨rfl, ?_⟩
  cases f.body with
  | none => exact .none
  | some b => exact .some (Body.Extends.refl b)

theorem Function.Extends.trans {f f' f'' : Function} (h : f.Extends f') (h' : f'.Extends f'') :
    f.Extends f'' := by
  obtain ⟨p, b⟩ := f
  obtain ⟨p', b'⟩ := f'
  obtain ⟨p'', b''⟩ := f''
  refine ⟨h'.prototype.trans h.prototype, ?_⟩
  obtain ⟨-, hb⟩ := h
  obtain ⟨-, hb'⟩ := h'
  cases hb with
  | none => exact hb'
  | some hb =>
    cases hb' with
    | some hb' => exact .some (hb.trans hb')

theorem Module.Extends.trans {m m' m'' : Module} (h : m.Extends m') (h' : m'.Extends m'') :
    m.Extends m'' := by
  refine ⟨h'.name.trans h.name, h.globals.trans h'.globals, fun i f hf => ?_⟩
  obtain ⟨f', hf', hext⟩ := h.functions i f hf
  obtain ⟨f'', hf'', hext'⟩ := h'.functions i f' hf'
  exact ⟨f'', hf'', hext.trans hext'⟩

theorem Slot.Extends.refl (s : Slot) : s.Extends s := ⟨rfl, rfl, id, id⟩

theorem Slot.Extends.trans {s s' s'' : Slot} (h : s.Extends s') (h' : s'.Extends s'') :
    s.Extends s'' :=
  ⟨h'.symbol.trans h.symbol, h'.ptr.trans h.ptr, h'.written ∘ h.written, h'.warned ∘ h.warned⟩

namespace SlotTable

theorem Extends.refl (t : SlotTable) : t.Extends t := fun _ s hs => ⟨s, hs, .refl s⟩

theorem Extends.trans {t t' t'' : SlotTable} (h : t.Extends t') (h' : t'.Extends t'') :
    t.Extends t'' := by
  intro i s hs
  obtain ⟨s', hs', hext⟩ := h i s hs
  obtain ⟨s'', hs'', hext'⟩ := h' i s' hs'
  exact ⟨s'', hs'', hext.trans hext'⟩

/-- `SlotTable.add` leaves all slots where they are. -/
theorem extends_add (t : SlotTable) (s : Slot) : t.Extends (t.add s) := by
  intro i s hs
  have hlt : i < t.size := (Array.getElem?_eq_some_iff.mp hs).1
  exact ⟨s, by rw [get?_add, if_neg (Nat.ne_of_lt hlt), hs], .refl s⟩

/-- `modify i f` changes the slot at `i`. -/
theorem get?_modify_self {t : SlotTable} {i : Nat} {f : Slot → Slot} {s : Slot}
    (h : t.get? i = some s) :
    (t.modify i f).get? i = some (f s) := by
  rw [get?_modify, if_pos rfl, h, Option.map_some]

/-- `modify i f` changes no other slot. -/
theorem get?_modify_of_ne {t : SlotTable} {i j : Nat} (h : i ≠ j) (f : Slot → Slot) :
    (t.modify i f).get? j = t.get? j := by
  rw [get?_modify, if_neg h]

/-- `modify` extends a table if `f` keeps what is recorded of a slot. -/
theorem extends_modify (t : SlotTable) (i : Nat) {f : Slot → Slot}
    (hf : ∀ s : Slot, s.Extends (f s)) :
    t.Extends (t.modify i f) := by
  intro j s hs
  by_cases h : i = j
  · subst h
    exact ⟨f s, get?_modify_self hs, hf s⟩
  · exact ⟨s, (get?_modify_of_ne h f).trans hs, .refl s⟩

/-- `markWritten` takes no mark back. -/
theorem extends_markWritten (t : SlotTable) (i : Nat) : t.Extends (t.markWritten i) :=
  t.extends_modify i fun _ => ⟨rfl, rfl, fun _ => rfl, id⟩

/-- `markWarned` takes no mark back. -/
theorem extends_markWarned (t : SlotTable) (i : Nat) : t.Extends (t.markWarned i) :=
  t.extends_modify i fun _ => ⟨rfl, rfl, id, fun _ => rfl⟩

end SlotTable

namespace Compilation

variable {c c' c'' : Compilation} {names : List String}

theorem Extends.trans (h : c.Extends c') (h' : c'.Extends c'') : c.Extends c'' :=
  ⟨h.module.trans h'.module, h.slots.trans h'.slots,
    fun i name hi => h'.names i name (h.names i name hi)⟩

/-- The first function of a compilation is `main`. -/
theorem getElem?_functions_zero (c : Compilation) :
    c.functions[0]? = some ⟨mainPrototype, some c.main⟩ := by
  unfold functions
  cases c.declaresPrintf <;> simp

/-- The second is `printf`, once it is declared, and there is no third. -/
theorem getElem?_functions_succ {i : Nat} {f : Function} :
    c.functions[i + 1]? = some f ↔ c.declaresPrintf = true ∧ i = 0 ∧
      f = ⟨printfPrototype, none⟩ := by
  unfold functions
  rcases i with _ | i <;> cases c.declaresPrintf <;> simp [eq_comm]

/-- The module extends if the constants and `main` do and `printf` stays declared. -/
theorem extends_module (hoptions : c'.options = c.options)
    (hconstants : c.constants.toList <+: c'.constants.toList) (hmain : c.main.Extends c'.main)
    (hprintf : c.declaresPrintf = true → c'.declaresPrintf = true) :
    c.module.Extends c'.module := by
  refine ⟨by rw [module, module, hoptions], ?_, fun i f hf => ?_⟩
  · obtain ⟨more, hmore⟩ := hconstants
    rw [module, module, Array.toList_mapIdx, Array.toList_mapIdx, ← hmore, List.mapIdx_append]
    exact List.prefix_append _ _
  · show ∃ f', c'.functions[i]? = some f' ∧ _
    change c.functions[i]? = some f at hf
    -- The first function is `main`, whose body grows, and the only other one can be `printf`.
    cases i with
    | zero =>
      rw [getElem?_functions_zero] at hf ⊢
      obtain rfl := Option.some.inj hf
      exact ⟨_, rfl, rfl, .some hmain⟩
    | succ i =>
      obtain ⟨hdeclares, rfl, rfl⟩ := getElem?_functions_succ.mp hf
      exact ⟨_, getElem?_functions_succ.mpr ⟨hprintf hdeclares, rfl, rfl⟩, .refl _⟩

/-- A compilation extends if its module, its slots and its texts do. -/
theorem extends_of (hmodule : c.module.Extends c'.module) (hslots : c.slots.Extends c'.slots)
    (htexts : c.interner.texts.toList <+: c'.interner.texts.toList) : c.Extends c' := by
  refine ⟨hmodule, hslots, fun i name hi => ?_⟩
  obtain ⟨s, hs, hname⟩ := Option.bind_eq_some_iff.mp hi
  obtain ⟨s', hs', hext⟩ := hslots i s hs
  obtain ⟨more, hmore⟩ := htexts
  refine Option.bind_eq_some_iff.mpr ⟨s', hs', ?_⟩
  rw [Interner.resolve?, ← Array.getElem?_toList] at hname ⊢
  rw [hext.symbol, ← hmore, List.getElem?_append_left (List.getElem?_eq_some_iff.mp hname).1]
  exact hname

theorem Extends.refl (c : Compilation) : c.Extends c :=
  extends_of (extends_module rfl (List.prefix_refl _) (.refl _) id) (.refl _) (List.prefix_refl _)

/-- An elementary change keeps `main` a single block. -/
theorem Change.isStraight (h : c.Change names c') (hc : c.main.IsStraight) :
    c'.main.IsStraight := by
  cases h with
  | report | constant | printf | find => exact hc
  | compute ty hint => exact hc.push _ ty hint
  | allocate => exact hc.push _ _ _
  | store value => exact hc.push _ _ ""
  | load hint => exact hc.push _ _ hint
  | warn hint => exact hc.push _ _ hint

/-- An elementary change takes nothing back. -/
theorem Change.extends (h : c.Change names c') (hc : c.main.IsStraight) : c.Extends c' := by
  have hpush : ∀ (kind : Kind) (ty : Ty) (hint : String),
      c.module.Extends (c.push kind ty hint).module :=
    fun kind ty hint => extends_module rfl (List.prefix_refl _) (hc.extends_push kind ty hint) id
  -- One case per elementary change: most push an instruction or touch one table.
  cases h with
  | report =>
    exact extends_of (extends_module rfl (List.prefix_refl _) (.refl _) id) (.refl _)
      (List.prefix_refl _)
  | find => exact .refl c
  | constant bytes =>
    exact extends_of (extends_module rfl (toList_prefix_push _ bytes) (.refl _) id) (.refl _)
      (List.prefix_refl _)
  | printf =>
    exact extends_of (extends_module rfl (List.prefix_refl _) (.refl _) fun _ => rfl) (.refl _)
      (List.prefix_refl _)
  | compute ty hint => exact extends_of (hpush _ ty hint) (.refl _) (List.prefix_refl _)
  | @allocate name _ =>
    exact extends_of (hpush _ _ _) (c.slots.extends_add _) (toList_prefix_push _ name)
  | store => exact extends_of (hpush _ _ "") (c.slots.extends_markWritten _) (List.prefix_refl _)
  | load hint => exact extends_of (hpush _ _ hint) (.refl _) (List.prefix_refl _)
  | warn hint =>
    exact extends_of (hpush _ _ hint) (c.slots.extends_markWarned _) (List.prefix_refl _)

/-- No change touches the options. -/
theorem Evolves.options (h : c.Evolves names c') : c'.options = c.options := by
  induction h with
  | refl => rfl
  | change _ hchange ih =>
    rw [← ih]
    cases hchange <;> rfl

/-- Changes in a row keep `main` a single block. -/
theorem Evolves.isStraight (h : c.Evolves names c') (hc : c.main.IsStraight) :
    c'.main.IsStraight := by
  induction h with
  | refl => exact hc
  | change _ hchange ih => exact hchange.isStraight ih

/-- Changes in a row take nothing back. -/
theorem Evolves.extends (h : c.Evolves names c') (hc : c.main.IsStraight) : c.Extends c' := by
  induction h with
  | refl => exact .refl c
  | change hevolves hchange ih => exact ih.trans (hchange.extends (hevolves.isStraight hc))

end Compilation

/-! ### Steps are rows of changes -/

open Draft

namespace Compilation

/-- `c.Coherent`: `c` follows some draft. -/
def Coherent (c : Compilation) : Prop := ∃ d, c.Follows c.options d

/-- `Becomes c names c'`: `c` evolves to `c'`, which follows a draft. -/
structure Becomes (c : Compilation) (names : List String) (c' : Compilation) : Prop where
  coherent : c'.Coherent
  evolves : c.Evolves names c'

variable {c c' c'' : Compilation} {options : Options} {d : Draft} {names more : List String}

theorem Follows.coherent (hc : c.Follows options d) : c.Coherent :=
  ⟨d, by rw [hc.options]; exact hc⟩

/-- A new compilation is coherent. -/
theorem coherent_new (options : Options) : Coherent { options } := (follows_empty options).coherent

/-- `main` is a single block in a coherent compilation. -/
theorem Coherent.isStraight (hc : c.Coherent) : c.main.IsStraight := by
  obtain ⟨d, hc⟩ := hc
  rw [hc.main]
  rfl

theorem Becomes.refl (hc : c.Coherent) : c.Becomes [] c := ⟨hc, .refl⟩

/-- Evolving to what follows a draft and on from there. -/
theorem Becomes.trans (h : c.Becomes names c') (h' : c'.Becomes more c'') :
    c.Becomes (names ++ more) c'' :=
  ⟨h'.coherent, h.evolves.trans h'.evolves⟩

/-- A slot of the table belongs to the variable at its position, and holds a pointer. -/
theorem Follows.exists_variable (hc : c.Follows options d) {i : Nat} {slot : Slot}
    (hslot : c.slots.get? i = some slot) :
    ∃ v : Variable, d.IsAt v.name i ∧ slot.ptr = .inst (d.slot v.name) ∧
      c.main.typeOf slot.ptr = .ptr := by
  have hlt : i < d.vars.length := hc.size ▸ (Array.getElem?_eq_some_iff.mp hslot).1
  obtain ⟨warned, hslot', -⟩ := hc.slots i _ (List.getElem?_eq_getElem hlt)
  obtain rfl := Option.some.inj (hslot.symm.trans hslot')
  have hv := hc.valid.lookup?_eq (List.getElem_mem hlt)
  refine ⟨d.vars[i], ?_, ?_, ?_⟩
  · rw [IsAt, List.getElem?_eq_getElem hlt, Option.map_some]
  · rw [slot_of_lookup? hv]
  · rw [hc.main, ← slot_of_lookup? hv]
    exact hc.valid.typeOf_slot hv

end Compilation

namespace Emit

open Compilation

variable {α β : Type} {c : Compilation} {x : Emit α} {next : α → Emit β} {names : List String}

/-- If `x` becomes with `names` and what comes next asks for none, then so does `x >>= next`. -/
theorem becomes_bind (hx : c.Becomes names (x c).2)
    (hnext : ∀ a c', x c = (.ok a, c') → c'.Becomes [] (next a c').2) :
    c.Becomes names ((x >>= next) c).2 := by
  rcases hxc : x c with ⟨e | a, c'⟩
  · rw [bind_of_error hxc]
    rwa [hxc] at hx
  · rw [bind_of_ok hxc]
    rw [hxc] at hx
    simpa using hx.trans (hnext a c' hxc)

/-- `Makes x names`: `x` makes changes that ask for `names`, whether it succeeds or fails. -/
def Makes (x : Emit α) (names : List String) : Prop :=
  ∀ c : Compilation, c.Coherent → c.Becomes names (x c).2

theorem makes_pure (a : α) : Makes (pure a) [] := fun _ hc => .refl hc

theorem makes_throw (e : EmitError) : Makes (throw e : Emit α) [] := fun _ hc => .refl hc

/-- Steps in a row make the changes of both. Only the first may ask for names. -/
theorem Makes.bind (hx : Makes x names) (hnext : ∀ a, Makes (next a) []) :
    Makes (x >>= next) names := by
  intro c hc
  refine becomes_bind (hx c hc) fun a c' hxc => hnext a c' ?_
  have hcoherent := (hx c hc).coherent
  rwa [hxc] at hcoherent

/-- A step that leads to a draft leads to what is coherent. -/
theorem Leads.coherent {d d' : Draft} {Q : α → Prop} (h : Leads c.options d x Q d')
    (hc : c.Follows c.options d) : (x c).2.Coherent := by
  obtain ⟨a, c', hxc, -, hc'⟩ := h c hc
  rw [hxc]
  exact hc'.coherent

/-- An event is a change. -/
theorem makes_report (e : Event) : Makes (report e) [] :=
  fun _ ⟨_, hc⟩ => ⟨(leads_report e).coherent hc, (Change.report e).evolves⟩

/-- A constant is a change. -/
theorem makes_constant (text : String) : Makes (constant text.toByteArray) [] :=
  fun _ ⟨_, hc⟩ => ⟨(leads_constant text).coherent hc, (Change.constant _).evolves⟩

/-- `declarePrintf` reports an event and declares, or does nothing. -/
theorem makes_declarePrintf : Makes declarePrintf [] := by
  rintro c ⟨d, hc⟩
  refine ⟨leads_declarePrintf.coherent hc, ?_⟩
  rw [declarePrintf, get_bind]
  split
  · exact .refl
  · exact (Change.report _).evolves.change .printf

/-- `instruction` pushes what passes `check`. -/
theorem instruction_of_check {d : Draft} (hc : c.Follows c.options d) {kind : Kind} {ty : Ty}
    (hcheck : c.main.check .i32 c.prototype? kind = .ok ty) (hint : String) :
    instruction kind hint c = (.ok d.next, c.push kind ty hint) := by
  rw [Compilation.push, hc.main, body_push]
  rw [hc.main] at hcheck
  exact instruction_eq c hc.valid hc.main hcheck hint

/-- `instruction` refuses what fails `check`, and changes nothing. -/
theorem instruction_of_check_error {kind : Kind} {cause : BuildError}
    (hcheck : c.main.check .i32 c.prototype? kind = .error cause) (hint : String) :
    instruction kind hint c = (.error (.build cause), c) := by
  have hret : mainPrototype.ret = .i32 := rfl
  unfold instruction Body.emit
  rw [hret, hcheck]
  rfl

/-- An instruction that only computes is pushed or refused, and asks for no name. -/
theorem makes_instruction {kind : Kind} (hkind : kind.isPlain = true) (hint : String) :
    Makes (instruction kind hint) [] := by
  rintro c ⟨d, hc⟩
  cases hcheck : c.main.check .i32 c.prototype? kind with
  -- An instruction that is refused changes nothing.
  | error cause =>
    rw [instruction_of_check_error hcheck]
    exact .refl ⟨d, hc⟩
  | ok ty =>
    rw [instruction_of_check hc hcheck]
    refine ⟨?_, (Change.compute ty hint hkind).evolves⟩
    rw [Compilation.push, hc.main, body_push]
    exact (hc.push kind ty _ (Kind.isTerminator_of_isPlain hkind)).coherent

/-- `asDouble` asks for no name. -/
theorem makes_asDouble (value : Operand) : Makes (asDouble value) [] := by
  intro c hc
  rw [asDouble, get_bind]
  split
  · exact makes_instruction rfl _ c hc
  · exact makes_pure value c hc

/-- `apply` asks for no name. -/
theorem makes_apply (lhs rhs : Operand) (op : BinaryOperator) : Makes (apply lhs rhs op) [] := by
  have hcomputable : ∀ op : Operator, Makes (apply lhs rhs op.named) [] := by
    intro op
    rw [apply, op.instruction?_named]
    exact (makes_asDouble lhs).bind fun _ => (makes_asDouble rhs).bind fun _ =>
      makes_instruction (op.isPlain_kind _ _) _
  cases op with
  | arithmetic op => exact hcomputable (.arithmetic op)
  | comparison condition => exact hcomputable (.comparison condition)
  | equality => exact makes_throw _

/-- `binaryOp` asks for no name. -/
theorem makes_binaryOp (lhs rhs : Operand) (symbol : String) :
    Makes (binaryOp lhs rhs symbol) [] := by
  unfold binaryOp
  split
  · exact makes_apply lhs rhs _
  · exact makes_throw _

/-- `printFormatted` asks for no name. -/
theorem makes_printFormatted (format : String) (value : Operand) :
    Makes (printFormatted format value) [] :=
  makes_declarePrintf.bind fun _ => (makes_constant format).bind fun _ => makes_instruction rfl _

/-- `printString` asks for no name. -/
theorem makes_printString (text : String) : Makes (printString text) [] :=
  (makes_constant text).bind fun _ => makes_printFormatted _ _

/-- `printNumber` asks for no name. -/
theorem makes_printNumber (value : Operand) : Makes (printNumber value) [] :=
  (makes_asDouble value).bind fun _ => makes_printFormatted _ _

/-- `resolve` gives the slot of a variable, and changes nothing. -/
theorem resolve_of_lookup? {d : Draft} (hc : c.Follows c.options d) {name : String} {v : Variable}
    (hv : d.lookup? name = some v) :
    ∃ i slot, d.vars[i]? = some v ∧ c.slots.get? i = some slot ∧
      resolve name c = (.ok (i, slot), c) := by
  obtain ⟨i, hfind, hi⟩ := hc.find?_interner_eq_some hv
  obtain ⟨warned, hslot, -⟩ := hc.slots i v hi
  have hlt := (List.getElem?_eq_some_iff.mp hi).1
  have hlookup : c.slots.lookup? i = some i := by rw [hc.lookup?_slots, if_pos hlt]
  exact ⟨i, _, hi, hslot, resolve_of_found hfind hlookup hslot⟩

/-- `resolve` succeeds, asks for `name`, and gives a slot of the table. -/
theorem exists_resolve (hc : c.Coherent) (name : String) :
    ∃ i slot c', resolve name c = (.ok (i, slot), c') ∧ c.Becomes [name] c' ∧
      c'.slots.get? i = some slot := by
  obtain ⟨d, hc⟩ := hc
  cases hv : d.lookup? name with
  -- The name is found.
  | some v =>
    obtain ⟨i, slot, -, hslot, hresolve⟩ := resolve_of_lookup? hc hv
    have hmem : name ∈ c.interner.texts := by
      rw [← Array.mem_toList_iff, hc.texts, ← name_of_lookup? hv]
      exact List.mem_map_of_mem (mem_of_lookup? hv)
    exact ⟨i, slot, c, hresolve, ⟨⟨d, hc⟩, (Change.find hmem).evolves⟩, hslot⟩
  -- The name is new: its `alloca`, its symbol and its slot are one change, and the report is
  -- another.
  | none =>
    have hmem : name ∉ c.interner.texts := by
      have hnone := hc.find?_interner_eq_none hv
      rwa [Interner.find?, List.idxOf?_eq_none_iff, Array.mem_toList_iff] at hnone
    have hsize : c.interner.size = d.vars.length := by
      rw [Interner.size, ← Array.length_toList, hc.texts, List.length_map]
    have hevolves := (Change.allocate hmem).evolves.change (.report (.slotAllocated name))
    rw [Compilation.push, hsize, hc.main, body_push] at hevolves
    refine ⟨_, _, _, resolve_of_new hc hv, ⟨(hc.declare hv _).coherent, hevolves⟩, ?_⟩
    show (c.slots.add _).get? d.vars.length = _
    rw [SlotTable.get?_add, if_pos hc.size.symm]

/-- The text with the number `i` is resolved to the slot at `i`, and nothing changes. -/
theorem resolve_of_text (hc : c.Coherent) {i : Nat} {name : String}
    (h : c.interner.texts.toList[i]? = some name) :
    ∃ slot, c.slots.get? i = some slot ∧ resolve name c = (.ok (i, slot), c) := by
  obtain ⟨d, hc⟩ := hc
  have hi : d.IsAt name i := by rwa [hc.texts, List.getElem?_map] at h
  obtain ⟨v, -, hv⟩ := hi.lookup? hc.valid
  obtain ⟨j, slot, hj, hslot, hresolve⟩ := resolve_of_lookup? hc hv
  have hj' : d.IsAt name j := by rw [IsAt, hj, Option.map_some, name_of_lookup? hv]
  obtain rfl := hi.unique hc.valid hj'
  exact ⟨slot, hslot, hresolve⟩

/-- `resolve` asks for `name`. -/
theorem makes_resolve (name : String) : Makes (resolve name) [name] := by
  intro c hc
  obtain ⟨i, slot, c', hresolve, hbecomes, -⟩ := exists_resolve hc name
  rw [hresolve]
  exact hbecomes

/-- `store` to a slot of the table pushes the instruction and marks the slot. -/
theorem store_of_slot (hc : c.Coherent) {i : Nat} {slot : Slot} (hslot : c.slots.get? i = some slot)
    (value : Operand) :
    store i value slot.ptr c =
      (.ok (),
        { c.push (.store value slot.ptr) .void "" with slots := c.slots.markWritten i }) := by
  obtain ⟨d, hc⟩ := hc
  obtain ⟨v, -, -, hty⟩ := hc.exists_variable hslot
  have hcheck : c.main.check .i32 c.prototype? (.store value slot.ptr) = .ok .void := by
    rw [Body.check, Body.expect, if_pos hty]
    rfl
  rw [store, bind_of_ok (instruction_of_check hc hcheck _)]
  rfl

/-- `store` to a slot of the table is a change that asks for no name. -/
theorem becomes_store (hc : c.Coherent) {i : Nat} {slot : Slot} (hslot : c.slots.get? i = some slot)
    (value : Operand) : c.Becomes [] (store i value slot.ptr c).2 := by
  refine ⟨?_, ?_⟩
  · obtain ⟨d, hc⟩ := hc
    obtain ⟨v, hat, hptr, -⟩ := hc.exists_variable hslot
    rw [hptr]
    exact (leads_store hat value).coherent hc
  · rw [store_of_slot hc hslot]
    exact (Change.store value hslot).evolves

/-- `write` asks for `name`. -/
theorem makes_write (name : String) (value : Operand) : Makes (write name value) [name] := by
  intro c hc
  obtain ⟨i, slot, c₁, hresolve, hbecomes, hslot⟩ := exists_resolve hc name
  have hdouble := makes_asDouble value c₁ hbecomes.coherent
  have hstore : c₁.Becomes [] ((asDouble value >>= fun x => store i x slot.ptr) c₁).2 := by
    refine becomes_bind hdouble fun x c₂ hx => ?_
    rw [hx] at hdouble
    -- The table may have changed since the name was resolved, but the pointer has not.
    obtain ⟨slot', hslot', hext⟩ :=
      (hdouble.evolves.extends hbecomes.coherent.isStraight).slots i slot hslot
    rw [← hext.ptr]
    exact becomes_store hdouble.coherent hslot' x
  rw [write, bind_of_ok hresolve]
  simpa using hbecomes.trans hstore

/-- A load from a slot of the table is pushed. -/
theorem load_of_slot (hc : c.Coherent) {i : Nat} {slot : Slot} (hslot : c.slots.get? i = some slot)
    (hint : String) :
    (instruction (.load .double slot.ptr) hint c).2 = c.push (.load .double slot.ptr) .double hint ∧
      (c.push (.load .double slot.ptr) .double hint).Coherent := by
  obtain ⟨d, hc⟩ := hc
  obtain ⟨v, -, -, hty⟩ := hc.exists_variable hslot
  have hcheck : c.main.check .i32 c.prototype? (.load .double slot.ptr) = .ok .double := by
    rw [Body.check, Body.expect, if_pos hty]
    rfl
  constructor
  · rw [instruction_of_check hc hcheck]
  · rw [Compilation.push, hc.main, body_push]
    exact (hc.push _ _ _ rfl).coherent

/-- A load from a slot that was written or warned about is a change. -/
theorem becomes_load (hc : c.Coherent) {i : Nat} {slot : Slot} (hslot : c.slots.get? i = some slot)
    (hready : (slot.written || slot.warned) = true) (hint : String) :
    c.Becomes [] (instruction (.load .double slot.ptr) hint c).2 := by
  obtain ⟨hload, hcoherent⟩ := load_of_slot hc hslot hint
  rw [hload]
  exact ⟨hcoherent, (Change.load hint hslot hready).evolves⟩

/-- What `prepareRead` does about a slot that is neither written nor warned about depends on the
    policy only. -/
theorem prepareRead_eq (name : String) (i : Nat) {slot : Slot}
    (h : (slot.written || slot.warned) = false) (c : Compilation) :
    (c.options.reads = .preserve ∧ prepareRead name i slot c = (.ok (),
        { c with log := c.log.push (.readBeforeWrite name), slots := c.slots.markWarned i })) ∨
      prepareRead name i slot c = store i (.double Double.zero) slot.ptr
        { c with log := c.log.push (.zeroInitialized name) } ∨
      prepareRead name i slot c = (.error (.uninitializedRead name), c) := by
  rw [prepareRead, h, if_neg Bool.false_ne_true, get_bind]
  cases c.options.reads with
  | preserve => exact .inl ⟨rfl, rfl⟩
  | zeroInit => exact .inr (.inl rfl)
  | error => exact .inr (.inr rfl)

/-- `prepareRead` and the load behind it are changes, whatever the policy is. -/
theorem becomes_prepareRead (hc : c.Coherent) {i : Nat} {slot : Slot}
    (hslot : c.slots.get? i = some slot) (name : String) :
    c.Becomes []
      ((prepareRead name i slot >>= fun _ => instruction (.load .double slot.ptr) name) c).2 := by
  cases hready : slot.written || slot.warned with
  | true =>
    rw [prepareRead, hready]
    exact becomes_load hc hslot hready name
  | false =>
    rcases prepareRead_eq name i hready c with ⟨hpolicy, hprepare⟩ | hprepare | hprepare
    · rw [bind_of_ok hprepare]
      have hreport : c.Becomes [] { c with log := c.log.push (.readBeforeWrite name) } :=
        makes_report _ c hc
      -- The warning changes no code, so the load can be made.
      have hwarned : Coherent { c with
          log := c.log.push (.readBeforeWrite name), slots := c.slots.markWarned i } := by
        obtain ⟨d, hd⟩ := hreport.coherent
        obtain ⟨_, _, hmark, -, hd'⟩ := leads_markWarned hpolicy i _ hd
        obtain rfl := (Prod.mk.inj hmark).2
        exact hd'.coherent
      have hwarn :=
        Change.warn (c := { c with log := c.log.push (.readBeforeWrite name) }) name hslot
        (Bool.or_eq_false_iff.mp hready).1 hpolicy
      have hload := load_of_slot hwarned (SlotTable.get?_modify_self hslot) name
      rw [hload.1]
      exact ⟨hload.2, hreport.evolves.change hwarn⟩
    · have hreport : c.Becomes [] { c with log := c.log.push (.zeroInitialized name) } :=
        makes_report _ c hc
      have hstore := becomes_store hreport.coherent hslot (.double Double.zero)
      rw [store_of_slot hreport.coherent hslot] at hstore hprepare
      rw [bind_of_ok hprepare]
      -- The store has marked the slot, which is then loaded from like any other.
      have hload := becomes_load hstore.coherent (SlotTable.get?_modify_self hslot) rfl name
      simpa using (hreport.trans hstore).trans hload
    · rw [bind_of_error hprepare]
      exact .refl hc

/-- `read` asks for `name`. -/
theorem makes_read (name : String) : Makes (read name) [name] := by
  intro c hc
  obtain ⟨i, slot, c', hresolve, hbecomes, hslot⟩ := exists_resolve hc name
  rw [read, bind_of_ok hresolve]
  simpa using hbecomes.trans (becomes_prepareRead hbecomes.coherent hslot name)

end Emit

/-! ### Requests -/

/-- The names that a call asks for. -/
def Call.names : Call Operand → List String
  | read name => [name]
  | write name _ => [name]
  | _ => []

namespace Step

/-- The names that a step asks for, given the values on the stack. -/
def names : Step → List Operand → List String
  | read name, _ => [name]
  | write name, _ :: _ => [name]
  | _, _ => []

/-- The names that steps in a row ask for, up to the first that fails, which asks too. -/
def namesOfAll : List Step → List Operand → Compilation → List String
  | [], _, _ => []
  | step :: steps, stack, c =>
    step.names stack ++
      match step.emit stack c with
      | (.ok stack, c) => namesOfAll steps stack c
      | (.error _, _) => []

end Step

/-- What can be asked of a compilation, with any operands. -/
inductive Request where
  | call (call : Call Operand)
  | resolve (name : String)
  | printFormatted (format : String) (value : Operand)
  | script (source : String)

namespace Request

/-- The compilation that a request leaves behind, whether it succeeds or fails. -/
def perform : Request → Compilation → Compilation
  | call made, c => (made.emit c).2
  | resolve name, c => (Emit.resolve name c).2
  | printFormatted format value, c => (Emit.printFormatted format value c).2
  | script source, c => (compileInto source c).2

/-- The names that a request asks for. -/
def names : Request → Compilation → List String
  | call made, _ => made.names
  | resolve name, _ => [name]
  | printFormatted .., _ => []
  | script source, c => Step.namesOfAll ((parse source).steps.map (·.step)) [] c

/-- The compilation that requests in a row lead to. -/
def performAll (requests : List Request) (c : Compilation) : Compilation :=
  requests.foldl (fun c request => request.perform c) c

/-- The names that requests in a row ask for. -/
def namesOfAll : List Request → Compilation → List String
  | [], _ => []
  | request :: requests, c => request.names c ++ namesOfAll requests (request.perform c)

end Request

open Emit

/-- Every call makes changes that ask for `call.names`. -/
theorem Call.makes_emit (call : Call Operand) : Makes call.emit call.names := by
  cases call with
  | constant value => exact makes_pure _
  | read name => exact (makes_read name).bind fun _ => makes_pure _
  | write name value => exact (makes_write name value).bind fun _ => makes_pure _
  | binaryOp lhs rhs symbol => exact (makes_binaryOp lhs rhs symbol).bind fun _ => makes_pure _
  | apply lhs rhs op => exact (makes_apply lhs rhs op).bind fun _ => makes_pure _
  | printNumber value => exact (makes_printNumber value).bind fun _ => makes_pure _
  | printString text => exact (makes_printString text).bind fun _ => makes_pure _

namespace Step

/-- Every step of a script makes changes that ask for `step.names stack`. -/
theorem makes_emit (step : Step) (stack : List Operand) :
    Makes (step.emit stack) (step.names stack) := by
  cases step with
  | push value => exact makes_pure _
  | read name => exact (makes_read name).bind fun _ => makes_pure _
  -- A step that lacks its operands changes nothing.
  | apply symbol =>
    rcases stack with _ | ⟨y, _ | ⟨x, stack⟩⟩
    · exact makes_pure _
    · exact makes_pure _
    · exact (makes_binaryOp x y symbol.text).bind fun _ => makes_pure _
  | negate =>
    rcases stack with _ | ⟨x, stack⟩
    · exact makes_pure _
    · exact (makes_apply _ x _).bind fun _ => makes_pure _
  | write name =>
    rcases stack with _ | ⟨x, stack⟩
    · exact makes_pure _
    · exact (makes_write name x).bind fun _ => makes_pure _
  | printNumber =>
    rcases stack with _ | ⟨x, stack⟩
    · exact makes_pure _
    · exact (makes_printNumber x).bind fun _ => makes_pure _
  | printString text => exact (makes_printString text).bind fun _ => makes_pure _

/-- Steps in a row make the changes of each, up to the first that fails. -/
theorem becomes_emitList (steps : List Step) (stack : List Operand) {c : Compilation}
    (hc : c.Coherent) :
    c.Becomes (namesOfAll steps stack c) (emitList steps stack c).2 := by
  induction steps generalizing stack c with
  | nil => exact .refl hc
  | cons step steps ih =>
    have hstep := step.makes_emit stack c hc
    rw [namesOfAll, emitList, List.foldlM_cons]
    rcases hemit : step.emit stack c with ⟨e | stack', c'⟩
    -- The step that fails has asked for its names and may have changed something.
    · rw [bind_of_error hemit]
      rw [hemit] at hstep
      simpa using hstep
    · rw [bind_of_ok hemit]
      rw [hemit] at hstep
      exact hstep.trans (ih stack' hstep.coherent)

end Step

namespace Request

/-- `request.perform` makes changes that ask for `request.names`. -/
theorem becomes_perform (request : Request) {c : Compilation} (hc : c.Coherent) :
    c.Becomes (request.names c) (request.perform c) := by
  cases request with
  | call call => exact call.makes_emit c hc
  | resolve name => exact makes_resolve name c hc
  | printFormatted format value => exact makes_printFormatted format value c hc
  | script source =>
    rw [perform, compileInto_snd]
    exact Step.becomes_emitList _ [] hc

/-- `performAll` makes the changes of all requests, in order. -/
theorem becomes_performAll (requests : List Request) {c : Compilation} (hc : c.Coherent) :
    c.Becomes (namesOfAll requests c) (performAll requests c) := by
  induction requests generalizing c with
  | nil => exact .refl hc
  | cons request requests ih =>
    have hperform := request.becomes_perform hc
    exact hperform.trans (ih hperform.coherent)

end Request

end Straightline
