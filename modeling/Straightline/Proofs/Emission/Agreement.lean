import Straightline.Proofs.Emission.Draft
import Straightline.Proofs.Ir.InPlace

/-!
# Compilations follow drafts

A compilation keeps tables that a draft does not have, and its steps can fail. `Compilation.Follows`
ties the two: same code, same variables.

* `Emit.Leads` says that a step succeeds and takes a draft to another, and `Emit.Refuses` that it
  fails. Both chain through `bind`.
* There is one `leads_` lemma for each step, and `refuses_read` and `refuses_binaryOp` are the two
  ways to fail.
* `Compilation.Follows.finish` gives the finished program.
-/

namespace Straightline

open Draft

/-! ### Following a draft -/

/-- `c.Follows options d`: `c` has the code and the variables of the draft `d`. Its log and its
    warnings are its own; a variable is only warned about under `preserve`. -/
structure Compilation.Follows (c : Compilation) (options : Options) (d : Draft) : Prop where
  valid : d.Valid
  options : c.options = options
  main : c.main = d.body
  constants : c.constants = d.constants
  declaresPrintf : c.declaresPrintf = d.declaresPrintf
  texts : c.interner.texts.toList = d.vars.map (·.name)
  indexed : c.slots.Indexed
  size : c.slots.size = d.vars.length
  slots : ∀ (i : Nat) (v : Variable), d.vars[i]? = some v → ∃ warned,
    c.slots.get? i = some ⟨i, .inst v.slot, v.written, warned⟩ ∧
      (warned = true → c.options.reads = .preserve)

/-- A new compilation follows the draft `{}`. -/
theorem Compilation.follows_empty (options : Options) :
    Compilation.Follows { options } options {} where
  valid := valid_empty
  options := rfl
  main := rfl
  constants := rfl
  declaresPrintf := rfl
  texts := rfl
  indexed := SlotTable.indexed_empty
  size := rfl
  slots := by simp

namespace Emit

variable {α β : Type}

theorem get_bind (next : Compilation → Emit β) (c : Compilation) :
    (get >>= next) c = next c c := rfl

theorem modifyGet_bind (f : Compilation → α × Compilation) (next : α → Emit β) (c : Compilation) :
    (modifyGet f >>= next) c = next (f c).1 (f c).2 := rfl

/-- `Leads options d x Q d'`: on everything that follows `d`, `x` succeeds with a result in `Q`, and
    what it leads to follows `d'`. -/
def Leads (options : Options) (d : Draft) (x : Emit α) (Q : α → Prop) (d' : Draft) : Prop :=
  ∀ c : Compilation, c.Follows options d →
    ∃ a c', x c = (.ok a, c') ∧ Q a ∧ c'.Follows options d'

/-- `Refuses options d x e`: on everything that follows `d`, `x` fails with `e`. -/
def Refuses (options : Options) (d : Draft) (x : Emit α) (e : EmitError) : Prop :=
  ∀ c : Compilation, c.Follows options d → ∃ c', x c = (.error e, c')

variable {options : Options} {d d' d'' : Draft} {x : Emit α} {next : α → Emit β} {Q : α → Prop}
  {R : β → Prop} {e : EmitError}

/-- `pure a` keeps the draft. -/
theorem leads_pure {a : α} (h : Q a) : Leads options d (pure a) Q d :=
  fun c hc => ⟨a, c, rfl, h, hc⟩

/-- Steps in a row lead on: if `x` leads from `d` to `d'` and `next a` from `d'` to `d''`, then `x
    >>= next` leads from `d` to `d''`. -/
theorem Leads.bind (hx : Leads options d x Q d')
    (hnext : ∀ a, Q a → Leads options d' (next a) R d'') :
    Leads options d (x >>= next) R d'' := by
  intro c hc
  obtain ⟨a, c', hxc, ha, hc'⟩ := hx c hc
  rw [bind_of_ok hxc]
  exact hnext a ha c' hc'

/-- If `x` is refused, so is `x >>= next`. -/
theorem Refuses.bind (hx : Refuses options d x e) : Refuses options d (x >>= next) e := by
  intro c hc
  obtain ⟨c', hxc⟩ := hx c hc
  exact ⟨c', bind_of_error hxc⟩

/-- If `next a` is refused on what `x` leads to, so is `x >>= next`. -/
theorem Leads.bind_refuses (hx : Leads options d x Q d')
    (hnext : ∀ a, Q a → Refuses options d' (next a) e) : Refuses options d (x >>= next) e := by
  intro c hc
  obtain ⟨a, c', hxc, ha, hc'⟩ := hx c hc
  rw [bind_of_ok hxc]
  exact hnext a ha c' hc'

/-- `get` gives a compilation that follows the draft. -/
theorem leads_get : Leads options d get (·.Follows options d) d := fun c hc => ⟨c, c, rfl, hc, hc⟩

/-- An event changes only the log, which no draft has. -/
theorem leads_report (event : Event) : Leads options d (report event) (fun _ => True) d :=
  fun _ hc => ⟨(), _, rfl, trivial, { hc with }⟩

end Emit

/-! ### Instructions -/

namespace Draft

/-- The block of a valid draft is open: no `ret` stands in it. -/
theorem Valid.isTerminated_block {d : Draft} (h : d.Valid) :
    d.body.isTerminated d.block = false := by
  unfold Body.isTerminated
  cases d.block.instructions.back? with
  | none => rfl
  | some i =>
    rw [instructions_body]
    dsimp only
    cases hinst : d.instructions[i]? with
    | none => rfl
    | some inst => exact h.noTerminator i inst hinst

/-- `Body.push` at the end of the block is `Draft.push`. -/
theorem body_push (d : Draft) (kind : Kind) (ty : Ty) (hint : String) :
    d.body.push 0 kind ty hint =
      (d.push kind ty (if kind.isNamed ty then some hint else none)).body := by
  unfold Body.push Body.freshName
  cases kind.isNamed ty <;> simp [body, push, block, Array.range_succ]

/-- `Body.emit` adds an instruction that passes `check` to the body of a valid draft. -/
theorem Valid.emit {d : Draft} (h : d.Valid) {ret : Ty} {p : Nat → Option Prototype} {kind : Kind}
    {ty : Ty} (hcheck : d.body.check ret p kind = .ok ty) (hint : String) :
    d.body.emit 0 ret p kind hint =
      .ok (d.instructions.size,
        (d.push kind ty (if kind.isNamed ty then some hint else none)).body) := by
  unfold Body.emit
  rw [hcheck, ← body_push]
  show (if d.body.isTerminated d.block then _ else _) = _
  rw [h.isTerminated_block]
  rfl

end Draft

/-- If `c` follows `d`, then `c` with the body of `d.push kind ty hint` follows it. -/
theorem Compilation.Follows.push {c : Compilation} {options : Options} {d : Draft}
    (hc : c.Follows options d) (kind : Kind) (ty : Ty) (hint : Option String)
    (hk : kind.isTerminator = false) :
    Compilation.Follows { c with main := (d.push kind ty hint).body } options
      (d.push kind ty hint) where
  valid := hc.valid.push hk ty hint
  options := hc.options
  main := rfl
  constants := by rw [constants_push]; exact hc.constants
  declaresPrintf := by rw [declaresPrintf_push]; exact hc.declaresPrintf
  texts := by rw [vars_push]; exact hc.texts
  indexed := hc.indexed
  size := by rw [vars_push]; exact hc.size
  slots := by rw [vars_push]; exact hc.slots

/-- Once `printf` is declared, it is the function with the number 1 that a call sees. -/
theorem Compilation.Follows.prototype? {c : Compilation} {options : Options} {d : Draft}
    (hc : c.Follows options d) (h : d.declaresPrintf = true) :
    c.prototype? 1 = some printfPrototype := by
  show (if c.declaresPrintf then _ else _) = _
  rw [hc.declaresPrintf, h]
  rfl

namespace Emit

variable {options : Options} {d : Draft}

/-- `instruction` pushes an instruction that passes `check`, and gives `d.next`. -/
theorem instruction_eq (c : Compilation) (hd : d.Valid) (hmain : c.main = d.body) {kind : Kind}
    {ty : Ty} (hcheck : d.body.check .i32 c.prototype? kind = .ok ty) (hint : String) :
    instruction kind hint c =
      (.ok d.next,
        { c with
          main := (d.push kind ty (if kind.isNamed ty then some hint else none)).body }) := by
  have hemit := hd.emit hcheck hint
  have hret : mainPrototype.ret = .i32 := rfl
  unfold instruction
  rw [hmain, hret, hemit]
  rfl

/-- `instruction` leads to `d.push` for every instruction that passes `check`. Only a call looks at
    the prototypes. -/
theorem leads_instruction (kind : Kind) (ty : Ty) (hint : String) (hk : kind.isTerminator = false)
    (hcheck : ∀ p : Nat → Option Prototype, (d.declaresPrintf = true → p 1 = some printfPrototype) →
      d.body.check .i32 p kind = .ok ty) :
    Leads options d (instruction kind hint) (· = d.next)
      (d.push kind ty (if kind.isNamed ty then some hint else none)) :=
  fun c hc => ⟨_, _, instruction_eq c hc.valid hc.main (hcheck _ hc.prototype?) hint, rfl,
    hc.push kind ty _ hk⟩

/-- `asDouble` does what `Draft.asDouble` does: it widens the result of a comparison. -/
theorem leads_asDouble (x : Operand) :
    Leads options d (asDouble x) (· = (d.asDouble x).1) (d.asDouble x).2 := by
  refine leads_get.bind fun c hc => ?_
  rw [hc.main]
  unfold Draft.asDouble
  split
  · next hx =>
    refine leads_instruction (.widen x) .double "booltmp" rfl fun p _ => ?_
    rw [Body.check, Body.expect, if_pos hx]
    rfl
  · exact leads_pure rfl

end Emit

/-! ### Variables -/

namespace Draft

/-- `d.IsAt name i`: the variable at `i` has the name `name`. -/
def IsAt (d : Draft) (name : String) (i : Nat) : Prop := d.vars[i]?.map (·.name) = some name

theorem IsAt.getElem? {d : Draft} {name : String} {i : Nat} (h : d.IsAt name i) :
    ∃ v, d.vars[i]? = some v ∧ v.name = name := Option.map_eq_some_iff.mp h

/-- The variable at `i` is the one that `lookup?` finds, as names are not given twice. -/
theorem IsAt.lookup? {d : Draft} {name : String} {i : Nat} (h : d.IsAt name i) (hd : d.Valid) :
    ∃ v, d.vars[i]? = some v ∧ d.lookup? name = some v := by
  obtain ⟨v, hv, rfl⟩ := h.getElem?
  exact ⟨v, hv, hd.lookup?_eq (List.mem_of_getElem? hv)⟩

/-- A name stands at one position only. -/
theorem IsAt.unique {d : Draft} {name : String} {i j : Nat} (hi : d.IsAt name i) (hd : d.Valid)
    (hj : d.IsAt name j) : i = j := by
  rw [IsAt, ← List.getElem?_map] at hi hj
  exact (List.getElem?_inj (List.getElem?_eq_some_iff.mp hi).1 hd.names).mp (hi.trans hj.symm)

end Draft

namespace Compilation.Follows

variable {c : Compilation} {options : Options} {d : Draft}

/-- The symbol of a variable's name is its position among the variables. -/
theorem find?_interner_eq_some (hc : c.Follows options d) {name : String} {v : Variable}
    (hv : d.lookup? name = some v) :
    ∃ i, c.interner.find? name = some i ∧ d.vars[i]? = some v := by
  obtain ⟨hname, i, hi, rfl, hbefore⟩ := List.find?_eq_some_iff_getElem.mp hv
  refine ⟨i, ?_, List.getElem?_eq_getElem hi⟩
  rw [Interner.find?, hc.texts, List.idxOf?, List.findIdx?_eq_some_iff_getElem]
  refine ⟨by simpa using hi, by simpa using hname, fun j hji => ?_⟩
  simpa using hbefore j hji

/-- A name without a variable has no symbol. -/
theorem find?_interner_eq_none (hc : c.Follows options d) {name : String}
    (hv : d.lookup? name = none) : c.interner.find? name = none := by
  rw [Interner.find?, hc.texts, List.idxOf?_eq_none_iff]
  intro hmem
  obtain ⟨v, hv', rfl⟩ := List.mem_map.mp hmem
  simpa using List.find?_eq_none.mp hv v hv'

/-- The slot of a symbol `i` stands at `i`. -/
theorem lookup?_slots (hc : c.Follows options d) (i : Nat) :
    c.slots.lookup? i = if i < d.vars.length then some i else none := by
  -- The slots were registered in the order of their symbols.
  have hsymbol : ∀ j slot, c.slots.get? j = some slot → slot.symbol = j := by
    intro j slot hslot
    have hj : j < d.vars.length := hc.size ▸ (Array.getElem?_eq_some_iff.mp hslot).1
    obtain ⟨warned, hslot', -⟩ := hc.slots j _ (List.getElem?_eq_getElem hj)
    rw [Option.some.inj (hslot.symm.trans hslot')]
  split
  · next hi =>
    obtain ⟨warned, hslot, -⟩ := hc.slots i _ (List.getElem?_eq_getElem hi)
    exact hc.indexed.lookup?_symbol hslot
  · next hi =>
    by_contra hlookup
    obtain ⟨j, hj⟩ := Option.ne_none_iff_exists'.mp hlookup
    obtain ⟨slot, hslot, rfl⟩ := (hc.indexed i j).mp hj
    have hlt : j < c.slots.size := (Array.getElem?_eq_some_iff.mp hslot).1
    rw [hsymbol j slot hslot, ← hc.size] at hi
    exact hi hlt

/-- If a new name gets an `alloca`, a symbol and a slot behind all others, the compilation follows
    the draft in which the variable is declared. -/
theorem declare (hc : c.Follows options d) {name : String} (hv : d.lookup? name = none)
    (e : Event) :
    Compilation.Follows
      { c with
        main := (d.push (.alloca .double) .ptr (some name)).body
        interner := ⟨c.interner.texts.push name⟩
        slots := c.slots.add { symbol := d.vars.length, ptr := d.next }
        log := c.log.push e }
      options (d.declare name) := by
  have hvalid := hc.valid.declare name
  rw [declare_of_new hv] at hvalid ⊢
  have hpush := hc.push (.alloca .double) .ptr (some name) rfl
  refine ⟨hvalid, hc.options, rfl, hpush.constants, hpush.declaresPrintf, ?_, ?_, ?_, ?_⟩
  · simp [hc.texts]
  · refine hc.indexed.add ?_
    rw [hc.lookup?_slots, if_neg (Nat.lt_irrefl _)]
  · simp [hc.size]
  · intro i v hi
    show ∃ warned, (c.slots.add _).get? i = _ ∧ _
    rw [SlotTable.get?_add, hc.size]
    rw [List.getElem?_append] at hi
    -- The new slot is the last, and the others are as they were.
    split
    · next heq =>
      subst heq
      rw [if_neg (Nat.lt_irrefl _), Nat.sub_self] at hi
      obtain rfl := Option.some.inj hi
      exact ⟨false, rfl, by simp⟩
    · next hne =>
      split at hi
      · exact hc.slots i v hi
      · next hlt =>
        rw [List.getElem?_eq_none (by simp; omega)] at hi
        cases hi

end Compilation.Follows

namespace Emit

variable {options : Options} {d : Draft}

/-- `Resolved options d name found`: `found` is the position and the slot of `name` in `d`. -/
structure Resolved (options : Options) (d : Draft) (name : String) (found : Nat × Slot) : Prop where
  isAt : d.IsAt name found.1
  ptr : found.2.ptr = .inst (d.slot name)
  written : found.2.written = d.isWritten name
  warned : found.2.warned = true → options.reads = .preserve

/-- `resolve` looks up a name that has a slot, and changes nothing. -/
theorem resolve_of_found {c : Compilation} {name : String} {symbol i : Nat} {slot : Slot}
    (hfind : c.interner.find? name = some symbol) (hlookup : c.slots.lookup? symbol = some i)
    (hslot : c.slots.get? i = some slot) : resolve name c = (.ok (i, slot), c) := by
  rw [resolve, modifyGet_bind, get_bind, Interner.intern_of_find?_eq_some hfind]
  dsimp only
  rw [hlookup, Option.bind_some, hslot]
  rfl

/-- `resolve` gives a new name the slot behind all others. -/
theorem resolve_of_new {c : Compilation} (hc : c.Follows options d) {name : String}
    (hv : d.lookup? name = none) :
    resolve name c = (.ok (d.vars.length, { symbol := d.vars.length, ptr := d.next }),
      { c with
        main := (d.push (.alloca .double) .ptr (some name)).body
        interner := ⟨c.interner.texts.push name⟩
        slots := c.slots.add { symbol := d.vars.length, ptr := d.next }
        log := c.log.push (.slotAllocated name) }) := by
  have hlookup : c.slots.lookup? d.vars.length = none := by
    rw [hc.lookup?_slots, if_neg (Nat.lt_irrefl _)]
  have hsize : c.interner.size = d.vars.length := by
    rw [Interner.size, ← Array.length_toList, hc.texts, List.length_map]
  rw [resolve, modifyGet_bind, get_bind,
    Interner.intern_of_find?_eq_none (hc.find?_interner_eq_none hv), hsize]
  dsimp only
  rw [hlookup, Option.bind_none]
  dsimp only
  -- The name is interned before its slot is reserved.
  have hinst : ∀ interner, instruction (.alloca .double) name { c with interner } =
      (.ok d.next,
        { c with main := (d.push (.alloca .double) .ptr (some name)).body, interner }) :=
    fun interner => instruction_eq { c with interner } hc.valid hc.main rfl name
  rw [allocate, bind_of_ok (hinst _), modifyGet_bind,
    SlotTable.register_of_lookup?_eq_none _ hlookup, hc.size]
  rfl

/-- `resolve` leads to `d.declare name` and gives the slot of `name` there. -/
theorem leads_resolve (name : String) :
    Leads options d (resolve name) (Resolved options (d.declare name) name) (d.declare name) := by
  intro c hc
  cases hv : d.lookup? name with
  | some v =>
    -- The name is known: the index of the variable is that of the text and of the slot.
    obtain ⟨i, hfind, hi⟩ := hc.find?_interner_eq_some hv
    obtain ⟨warned, hslot, hwarned⟩ := hc.slots i v hi
    have hlt := (List.getElem?_eq_some_iff.mp hi).1
    have hlookup : c.slots.lookup? i = some i := by rw [hc.lookup?_slots, if_pos hlt]
    rw [declare_of_lookup? hv]
    refine ⟨_, c, resolve_of_found hfind hlookup hslot, ⟨?_, ?_, ?_, ?_⟩, hc⟩
    · rw [IsAt, hi, Option.map_some, name_of_lookup? hv]
    · rw [slot_of_lookup? hv]
    · rw [isWritten_of_lookup? hv]
    · rw [← hc.options]
      exact hwarned
  | none =>
    -- The name is new, and its slot is the last one.
    refine ⟨_, _, resolve_of_new hc hv, ⟨?_, ?_, ?_, ?_⟩, hc.declare hv _⟩
    · rw [declare_of_new hv]
      simp [IsAt]
    · rw [slot_declare_self]
      simp [slot, hv, next]
    · rw [isWritten_declare_self]
      simp [isWritten, hv]
    · simp

/-- `store` to the slot of `name` leads to `d.store name value`. -/
theorem leads_store {name : String} {i : Nat} (hi : d.IsAt name i) (value : Operand) :
    Leads options d (store i value (.inst (d.slot name))) (fun _ => True) (d.store name value) := by
  intro c hc
  obtain ⟨v, hvi, hv⟩ := hi.lookup? hc.valid
  have hcheck : d.body.check .i32 c.prototype? (.store value (.inst (d.slot name))) =
      .ok .void := by
    rw [Body.check, Body.expect, if_pos (hc.valid.typeOf_slot hv)]
    rfl
  refine ⟨(), { c with main := (d.store name value).body, slots := c.slots.markWritten i }, ?_,
    trivial, ?_⟩
  · rw [store, bind_of_ok (instruction_eq c hc.valid hc.main hcheck _)]
    rfl
  · refine ⟨hc.valid.store name value, hc.options, rfl, hc.constants, hc.declaresPrintf, ?_,
      hc.indexed.markWritten i, ?_, ?_⟩
    · rw [names_store]
      exact hc.texts
    · rw [SlotTable.size_markWritten, vars_store, List.length_map]
      exact hc.size
    · intro j w hw
      rw [vars_store, List.getElem?_map] at hw
      obtain ⟨u, hu, rfl⟩ := Option.map_eq_some_iff.mp hw
      obtain ⟨warned, hslot, hwarned⟩ := hc.slots j u hu
      refine ⟨warned, ?_, hwarned⟩
      rw [SlotTable.markWritten, SlotTable.get?_modify, hslot]
      -- The marked slot stands at the position of the name, and no other variable has this name.
      by_cases hname : u.name = name
      · have hj : d.IsAt name j := by rw [IsAt, hu, Option.map_some, hname]
        rw [if_pos (hi.unique hc.valid hj)]
        simp [Variable.mark, hname]
      · have hne : i ≠ j := by
          rintro rfl
          obtain rfl := Option.some.inj (hvi.symm.trans hu)
          exact hname (name_of_lookup? hv)
        rw [if_neg hne]
        simp [Variable.mark, hname]

/-- Under `preserve`, a slot may be marked as warned about. -/
theorem leads_markWarned (hpolicy : options.reads = .preserve) (i : Nat) :
    Leads options d (modify fun c => { c with slots := c.slots.markWarned i })
      (fun _ => True) d := by
  intro c hc
  refine ⟨(), { c with slots := c.slots.markWarned i }, rfl, trivial, { hc with
    indexed := hc.indexed.markWarned i
    size := (SlotTable.size_markWarned _ _).trans hc.size
    slots := ?_ }⟩
  intro j v hv
  obtain ⟨warned, hslot, -⟩ := hc.slots j v hv
  -- A mark is only right where reads are preserved, and that is the policy here.
  have hreads : c.options.reads = .preserve := by rw [hc.options, hpolicy]
  rw [SlotTable.markWarned, SlotTable.get?_modify, hslot]
  split
  · exact ⟨true, rfl, fun _ => hreads⟩
  · exact ⟨warned, rfl, fun _ => hreads⟩

/-- `prepareRead` leads to `d.prepare`, unless the policy `error` forbids the read. -/
theorem leads_prepareRead {name : String} {found : Nat × Slot} (h : Resolved options d name found)
    (hread : options.reads = .error → d.isWritten name = true) :
    Leads options d (prepareRead name found.1 found.2) (fun _ => True)
      (d.prepare options.reads name) := by
  unfold prepareRead
  rw [h.written, h.ptr]
  cases hw : d.isWritten name with
  | true =>
    rw [prepare_of_written hw]
    exact leads_pure trivial
  | false =>
    rw [Bool.false_or]
    cases hwarned : found.2.warned with
    | true =>
      -- Only `preserve` gives warnings, so there is no store to make up for.
      rw [prepare_of_ne (by simp [h.warned hwarned])]
      exact leads_pure trivial
    | false =>
      refine leads_get.bind fun c hc => ?_
      rw [hc.options]
      cases hp : options.reads with
      | preserve =>
        rw [prepare_of_ne (by simp)]
        exact (leads_report _).bind fun _ _ => leads_markWarned hp _
      | zeroInit =>
        rw [prepare_of_unwritten hw]
        exact (leads_report _).bind fun _ _ => leads_store h.isAt _
      | error =>
        rw [hread hp] at hw
        cases hw

/-- Under `error`, `prepareRead` refuses a variable that nothing was stored to. -/
theorem refuses_prepareRead {name : String} {found : Nat × Slot} (h : Resolved options d name found)
    (hpolicy : options.reads = .error) (hw : d.isWritten name = false) :
    Refuses options d (prepareRead name found.1 found.2) (.uninitializedRead name) := by
  have hwarned : found.2.warned = false := by
    cases hwarned : found.2.warned with
    | false => rfl
    | true => exact absurd (h.warned hwarned) (by simp [hpolicy])
  unfold prepareRead
  rw [h.written, hw, hwarned]
  refine leads_get.bind_refuses fun c hc => ?_
  rw [hc.options, hpolicy]
  exact fun c _ => ⟨c, rfl⟩

/-- A load from the slot of a variable is pushed. -/
theorem leads_load {name : String} {v : Variable} (hv : d.lookup? name = some v) :
    Leads options d (instruction (.load .double (.inst (d.slot name))) name) (· = d.next)
      (d.push (.load .double (.inst (d.slot name))) .double (some name)) := by
  intro c hc
  have hcheck : d.body.check .i32 c.prototype? (.load .double (.inst (d.slot name))) =
      .ok .double := by
    rw [Body.check, Body.expect, if_pos (hc.valid.typeOf_slot hv)]
    rfl
  exact ⟨_, _, instruction_eq c hc.valid hc.main hcheck name, rfl, hc.push _ _ _ rfl⟩

/-- `read` does what `Draft.read` does, unless the policy `error` forbids it. -/
theorem leads_read {name : String} (hread : options.reads = .error → d.isWritten name = true) :
    Leads options d (read name) (· = (d.read options.reads name).1)
      (d.read options.reads name).2 := by
  refine (leads_resolve name).bind fun found h => ?_
  refine (leads_prepareRead h (by rwa [isWritten_declare_self])).bind fun _ _ => ?_
  have hv := lookup?_declare_self d name
  -- A store of zero leaves the slot where it is.
  rw [h.ptr, slot_of_lookup? hv, ← slot_prepare hv options.reads]
  obtain ⟨v', hv', -⟩ := (grows_prepare _ options.reads name).lookup? hv
  exact leads_load hv'

/-- Under `error`, `read` refuses a variable that nothing was stored to. -/
theorem refuses_read {name : String} (hpolicy : options.reads = .error)
    (hw : d.isWritten name = false) :
    Refuses options d (read name) (.uninitializedRead name) := by
  refine (leads_resolve name).bind_refuses fun found h => ?_
  exact (refuses_prepareRead h hpolicy (by rwa [isWritten_declare_self])).bind

/-- `write` leads to `d.write name value`. -/
theorem leads_write (name : String) (value : Operand) :
    Leads options d (write name value) (fun _ => True) (d.write name value) := by
  refine (leads_resolve name).bind fun found h => ?_
  refine (leads_asDouble value).bind fun x hx => ?_
  subst hx
  have hv := lookup?_declare_self d name
  -- The value is widened after the slot was found, which adds no variable.
  have hslot : ((d.declare name).asDouble value).2.slot name = (d.declare name).slot name := by
    rw [slot_of_lookup? hv, slot_of_lookup? (by rw [lookup?_asDouble, hv])]
  rw [h.ptr, ← hslot]
  exact leads_store (by rw [IsAt, vars_asDouble]; exact h.isAt) _

end Emit

/-! ### Operators -/

namespace Operator

/-- The operator as a `BinaryOperator`. -/
def named : Operator → BinaryOperator
  | arithmetic op => .arithmetic op
  | comparison condition => .comparison condition

/-- `ofSymbol?` finds an operator by the text of its symbol. -/
theorem ofSymbol?_text (op : Operator) :
    BinaryOperator.ofSymbol? op.symbol.text = some op.named := by
  rcases op with (_ | _ | _ | _) | (_ | _) <;> rfl

/-- Every `Operator` has an instruction. -/
theorem instruction?_named (op : Operator) : op.named.instruction? = some (op.kind, op.hint) := by
  rcases op with (_ | _ | _ | _) | (_ | _) <;> rfl

/-- The instruction of an operator takes two doubles. -/
theorem check_kind (op : Operator) {b : Body} {x y : Operand} (hx : b.typeOf x = .double)
    (hy : b.typeOf y = .double) (ret : Ty) (p : Nat → Option Prototype) :
    b.check ret p (op.kind x y) = .ok op.ty := by
  cases op <;>
  · rw [kind, Body.check, Body.expect, if_pos hx, Body.expect, if_pos hy]
    rfl

theorem isNamed_kind (op : Operator) (x y : Operand) : (op.kind x y).isNamed op.ty = true := by
  cases op <;> rfl

end Operator

namespace Emit

variable {options : Options} {d : Draft}

/-- `apply` does what `Draft.apply` does if both operands come out of `asDouble` as doubles. -/
theorem leads_apply_of_typeOf (op : Operator) {x y : Operand}
    (hx : ((d.asDouble x).2.asDouble y).2.body.typeOf (d.asDouble x).1 = .double)
    (hy : ((d.asDouble x).2.asDouble y).2.body.typeOf ((d.asDouble x).2.asDouble y).1 = .double) :
    Leads options d (apply x y op.named) (· = (d.apply op x y).1) (d.apply op x y).2 := by
  rw [apply, op.instruction?_named, apply_eq]
  refine (leads_asDouble x).bind fun x' hx' => ?_
  refine (leads_asDouble y).bind fun y' hy' => ?_
  subst hx' hy'
  have hinst : Leads options _ (instruction (op.kind _ _) op.hint) _ _ :=
    leads_instruction _ _ op.hint (op.isTerminator_kind _ _) fun p _ => op.check_kind hx hy .i32 p
  rwa [op.isNamed_kind] at hinst

/-- `apply` does what `Draft.apply` does to two numbers. -/
theorem leads_apply (op : Operator) {x y : Operand} (hx : d.IsNumber x) (hy : d.IsNumber y) :
    Leads options d (apply x y op.named) (· = (d.apply op x y).1) (d.apply op x y).2 := by
  refine leads_apply_of_typeOf op ?_ (hy.grows (grows_asDouble d x)).typeOf_asDouble
  -- The left operand stays a double while the right one is widened.
  rw [(grows_asDouble _ y).typeOf] <;> rw [hx.typeOf_asDouble]
  decide

/-- `binaryOp` with the symbol of an operator does what `Draft.apply` does. -/
theorem leads_binaryOp (op : Operator) {x y : Operand} (hx : d.IsNumber x) (hy : d.IsNumber y) :
    Leads options d (binaryOp x y op.symbol.text) (· = (d.apply op x y).1) (d.apply op x y).2 := by
  rw [binaryOp, op.ofSymbol?_text]
  exact leads_apply op hx hy

/-- `binaryOp` refuses a symbol that is not `IsComputable`. -/
theorem refuses_binaryOp {s : Symbol} (hs : ¬ s.IsComputable) (x y : Operand) :
    Refuses options d (binaryOp x y s.text) (.unsupportedOperator s.text) := by
  intro c _
  rw [Symbol.isComputable_iff] at hs
  cases s <;> first | exact ⟨c, rfl⟩ | simp at hs

/-! ### Prints -/

/-- `constant` leads to `d.constant text` and gives the number of the new constant. -/
theorem leads_constant (text : String) :
    Leads options d (constant text.toByteArray) (· = .global d.constants.size)
      (d.constant text) := by
  intro c hc
  refine ⟨.global c.constants.size,
    { c with constants := c.constants.push text.toByteArray }, rfl, ?_, ?_⟩
  · rw [hc.constants]
  · exact { hc with
      valid := (Grows.constant text .refl).valid hc.valid
      constants := by rw [hc.constants]; rfl }

/-- `declarePrintf` leads to the draft in which `printf` is declared. -/
theorem leads_declarePrintf :
    Leads options d declarePrintf (fun _ => True) { d with declaresPrintf := true } := by
  refine leads_get.bind fun c hc => ?_
  split
  · next h =>
    -- It was declared before.
    have hd : { d with declaresPrintf := true } = d := by rw [← h, hc.declaresPrintf]
    rw [hd]
    exact leads_pure trivial
  · refine (leads_report _).bind fun _ _ c hc => ?_
    exact ⟨(), { c with declaresPrintf := true }, rfl, trivial, { hc with
      valid := (Grows.printf .refl).valid hc.valid
      declaresPrintf := rfl }⟩

/-- `printFormatted` leads to `d.printf format value`. -/
theorem leads_printFormatted (format : String) (value : Operand) :
    Leads options d (printFormatted format value) (· = d.next) (d.printf format value) := by
  refine leads_declarePrintf.bind fun _ _ => ?_
  refine (leads_constant format).bind fun x hx => ?_
  subst hx
  exact leads_instruction _ .i32 "printfCall" rfl fun p hp => by
    rw [Body.check, checkArity, hp rfl]
    rfl

/-- `printNumber` leads to `d.printNumber x`. -/
theorem leads_printNumber (x : Operand) :
    Leads options d (printNumber x) (· = (d.asDouble x).2.next) (d.printNumber x) := by
  refine (leads_asDouble x).bind fun x' hx' => ?_
  subst hx'
  exact leads_printFormatted _ _

/-- `printString` leads to `d.printString text`. -/
theorem leads_printString (text : String) :
    Leads options d (printString text) (· = d.next) (d.printString text) := by
  refine (leads_constant text).bind fun x hx => ?_
  subst hx
  exact leads_printFormatted _ _

end Emit

/-- `finish` succeeds on a compilation that follows `d`, and the module is that of `d.finish`. -/
theorem Compilation.Follows.finish {c : Compilation} {options : Options} {d : Draft}
    (hc : c.Follows options d) :
    ∃ c', Emit.finish c = (.ok (), c') ∧ c'.module = d.finish.module options.moduleName := by
  have hinst := Emit.instruction_eq c hc.valid hc.main
    (show d.body.check .i32 c.prototype? (.ret (some (.i32 0))) = .ok .void from rfl) ""
  refine ⟨_, bind_of_ok hinst, ?_⟩
  unfold Compilation.module Compilation.functions
  dsimp only
  rw [hc.options, hc.constants, hc.declaresPrintf]
  rfl

end Straightline
