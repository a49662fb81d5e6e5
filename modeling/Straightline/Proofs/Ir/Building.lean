import Straightline.Ir.Builder
import Straightline.Proofs.Ir.Names

/-!
# The structure of bodies

Blocks of several functions can be extended in any order, since a cursor is no more than two
numbers. Whatever is added and whatever is refused, all bodies keep their structure.

* `Body.IsSound` says what the structure of a body is: which indices its blocks list and in which
  order, where a return may stand, and what the names are.
* `Body.IsSound.push` and `Body.IsSound.appendBlock` are the steps that change a body. A step that
  fails changes nothing: `Module.emit_eq_ok` and `Module.appendBlock_eq_ok` say all that one does
  which does not fail.
* `isSound_build`: every body of a module is sound, by whichever steps the module was built.
* `Module.Indexed` says that the index of a module by names is inverse to its functions: it leads
  from a name to the latest function of that name. `indexed_build`: so it is, by whichever steps the
  module was built.
-/

namespace Straightline

/-! ### Sound bodies -/

/-- `kind.IsUnnamed prototype?`: the result of the instruction has no name, as that of a store, of a
    return, and of a call of a function that returns nothing. -/
def Kind.IsUnnamed (prototype? : Nat → Option Prototype) : Kind → Prop
  | store .. => True
  | ret _ => True
  | call callee _ => ∃ p, prototype? callee = some p ∧ p.ret = .void
  | _ => False

namespace Body

/-- The indices that the blocks list, block by block. -/
def listed (b : Body) : List Nat := b.blocks.toList.flatMap fun k => k.instructions.toList

/-- `b.IsSound prototype?`: the structure of a body, among functions with these prototypes. -/
structure IsSound (prototype? : Nat → Option Prototype) (b : Body) : Prop where
  /-- No index is listed twice. -/
  nodup_listed : b.listed.Nodup
  /-- The listed indices are those of the instructions. -/
  mem_listed : ∀ i, i ∈ b.listed ↔ i < b.instructions.size
  /-- The indices of a block increase. -/
  increasing : ∀ k ∈ b.blocks, k.instructions.toList.Pairwise (· < ·)
  /-- Before the last instruction of a block there is no return. -/
  ret_last : ∀ k ∈ b.blocks, ∀ i ∈ k.instructions.toList.dropLast, ∀ inst,
    b.instructions[i]? = some inst →
    ∀ value, inst.kind ≠ .ret value
  /-- No name is used twice. -/
  nodup_names : b.localNames.Nodup
  /-- The names in use are those that were handed out. -/
  mem_names : ∀ name, name ∈ b.localNames ↔ name ∈ b.names.taken
  /-- An instruction has no name only if it is of a kind that has none. -/
  unnamed : ∀ inst ∈ b.instructions, inst.name = none ↔ inst.kind.IsUnnamed prototype?
  /-- A call is one of a function that there is. -/
  callees : ∀ inst ∈ b.instructions, ∀ callee args, inst.kind = .call callee args →
    ∃ p, prototype? callee = some p

variable {b : Body} {prototype? prototype'? : Nat → Option Prototype}

/-- A body without blocks is sound. -/
theorem isSound_empty (prototype? : Nat → Option Prototype) : IsSound prototype? {} where
  nodup_listed := List.nodup_nil
  mem_listed i := by simp [listed]
  increasing := by simp
  ret_last := by simp
  nodup_names := List.nodup_nil
  mem_names name := by simp [localNames]
  unnamed := by simp
  callees := by simp

/-- More functions make no difference: a call is named for the function that it calls. -/
theorem IsSound.of_le (h : b.IsSound prototype?)
    (hle : ∀ i p, prototype? i = some p → prototype'? i = some p) : b.IsSound prototype'? :=
  { h with
    unnamed := by
      intro inst hinst
      rw [h.unnamed inst hinst]
      cases hkind : inst.kind with
      -- Only a call is named by the type of its callee, which is known before.
      | call callee args =>
        obtain ⟨p, hp⟩ := h.callees inst hinst callee args hkind
        simp only [Kind.IsUnnamed, hp, hle callee p hp]
      | _ => rfl
    callees := by
      intro inst hinst callee args hkind
      obtain ⟨p, hp⟩ := h.callees inst hinst callee args hkind
      exact ⟨p, hle callee p hp⟩ }

/-! ### Adding a block -/

@[simp] theorem listed_appendBlock (b : Body) (label : String) :
    (b.appendBlock label).2.listed = b.listed := by
  simp [appendBlock, listed]

/-- The name of a new block goes between the other labels and the names of the results. -/
theorem localNames_appendBlock (b : Body) (label : String) :
    (b.appendBlock label).2.localNames.Perm ((b.names.fresh label).1 :: b.localNames) := by
  simp [appendBlock, localNames]

/-- `Body.appendBlock` keeps a body sound. -/
theorem IsSound.appendBlock (h : b.IsSound prototype?) (label : String) :
    (b.appendBlock label).2.IsSound prototype? where
  nodup_listed := by
    rw [listed_appendBlock]
    exact h.nodup_listed
  mem_listed i := by
    rw [listed_appendBlock]
    exact h.mem_listed i
  -- The new block is empty.
  increasing k hk := by
    rcases Array.mem_push.mp hk with hk | rfl
    · exact h.increasing k hk
    · exact List.Pairwise.nil
  ret_last k hk i hi := by
    rcases Array.mem_push.mp hk with hk | rfl
    · exact h.ret_last k hk i hi
    · simp at hi
  nodup_names := by
    -- Its label is fresh among all names of the body.
    have hnew : (b.names.fresh label).1 ∉ b.localNames := by
      rw [h.mem_names]
      exact b.names.fresh_notMem label
    rw [(b.localNames_appendBlock label).nodup_iff]
    exact List.nodup_cons.mpr ⟨hnew, h.nodup_names⟩
  mem_names name := by
    have htaken : (b.appendBlock label).2.names.taken = (b.names.fresh label).1 :: b.names.taken :=
      b.names.taken_fresh label
    rw [(b.localNames_appendBlock label).mem_iff, htaken, List.mem_cons, List.mem_cons, h.mem_names]
  unnamed := h.unnamed
  callees := h.callees

/-! ### Adding an instruction -/

section

variable (b) (block : Nat) (kind : Kind) (ty : Ty) (named : Bool) (hint : String)

/-- `freshName` gives a name iff one is asked for. -/
theorem freshName_eq_none_iff : (b.freshName named hint).1 = none ↔ named = false := by
  cases named <;> simp [freshName]

/-- The name that `freshName` gives is taken from then on. -/
theorem taken_freshName :
    (b.freshName named hint).2.taken = (b.freshName named hint).1.toList ++ b.names.taken := by
  cases named <;> simp [freshName]

/-- The name that `freshName` gives was not taken before. -/
theorem freshName_notMem {name : String} (h : name ∈ (b.freshName named hint).1.toList) :
    name ∉ b.names.taken := by
  cases named with
  | false => cases h
  | true =>
    obtain rfl : name = (b.names.fresh hint).1 := List.mem_singleton.mp h
    exact b.names.fresh_notMem hint

/-- The instruction that is added. -/
def pushed : Instruction := ⟨kind, ty, (b.freshName (kind.isNamed ty) hint).1⟩

theorem instructions_push_eq :
    (b.push block kind ty hint).instructions = b.instructions.push (b.pushed kind ty hint) :=
  rfl

theorem blocks_push :
    (b.push block kind ty hint).blocks.toList = b.blocks.toList.modify block fun k =>
    { k with instructions := k.instructions.push b.instructions.size } :=
  Array.toList_modify

theorem names_push :
    (b.push block kind ty hint).names = (b.freshName (kind.isNamed ty) hint).2 := rfl

/-- The name of the new result is put behind the others, if it has one. -/
theorem localNames_push :
    (b.push block kind ty hint).localNames =
      b.localNames ++ (b.pushed kind ty hint).name.toList := by
  -- Only the list of a block grows, and its label stays.
  have hlabels : (b.push block kind ty hint).blocks.toList.map (·.label) =
      b.blocks.toList.map (·.label) := by
    apply List.ext_getElem?
    intro j
    rw [blocks_push, List.getElem?_map, List.getElem?_map, List.getElem?_modify]
    cases b.blocks.toList[j]? with
    | none => rfl
    | some k => by_cases hj : block = j <;> simp [hj]
  unfold localNames
  rw [hlabels, instructions_push_eq, Array.toList_push, List.filterMap_append, List.append_assoc]
  cases hname : (b.pushed kind ty hint).name <;> simp [hname]

end

/-- What grows by one element at one place of a list grows by it as a whole. -/
theorem perm_flatMap_modify {α β : Type} {xs : List α} {i : Nat} {a : α} {f : α → α}
    {g : α → List β} {y : β} (ha : xs[i]? = some a) (hg : g (f a) = g a ++ [y]) :
    ((xs.modify i f).flatMap g).Perm (y :: xs.flatMap g) := by
  induction xs generalizing i with
  | nil => simp at ha
  | cons x xs ih =>
    cases i with
    | zero =>
      obtain rfl : x = a := by simpa using ha
      rw [List.modify_zero_cons, List.flatMap_cons, List.flatMap_cons, hg, List.append_assoc]
      exact List.perm_middle
    | succ i =>
      rw [List.modify_succ_cons, List.flatMap_cons, List.flatMap_cons]
      exact ((ih (by simpa using ha)).append_left (g x)).trans List.perm_middle

/-- `push` lists the new instruction in its block. -/
theorem listed_push {block : Nat} {k : Block} (hk : b.blocks[block]? = some k) (kind : Kind)
    (ty : Ty) (hint : String) :
    (b.push block kind ty hint).listed.Perm (b.instructions.size :: b.listed) := by
  unfold listed
  rw [blocks_push]
  exact perm_flatMap_modify (Array.getElem?_toList.trans hk) Array.toList_push

/-- A block after `push` is one of those before, except that the one extended lists the new
    instruction too. -/
theorem mem_blocks_push {block : Nat} {k k' : Block} (hk : b.blocks[block]? = some k) {kind : Kind}
    {ty : Ty} {hint : String} (hk' : k' ∈ (b.push block kind ty hint).blocks) :
    k' ∈ b.blocks ∨ k' = ⟨k.label, k.instructions.push b.instructions.size⟩ := by
  obtain ⟨j, hj⟩ := Array.getElem?_of_mem hk'
  change (b.blocks.modify block _)[j]? = some k' at hj
  rw [Array.getElem?_modify] at hj
  split at hj
  · next hblock =>
    rw [← hblock, hk] at hj
    exact .inr (Option.some.inj hj).symm
  · exact .inl (Array.mem_of_getElem? hj)

/-- What a block lists is the index of an instruction. -/
theorem IsSound.lt_of_mem (h : b.IsSound prototype?) {k : Block} (hk : k ∈ b.blocks) {i : Nat}
    (hi : i ∈ k.instructions.toList) : i < b.instructions.size :=
  (h.mem_listed i).mp (List.mem_flatMap.mpr ⟨k, Array.mem_toList_iff.mpr hk, hi⟩)

/-- In a block that is not ended there is no return at all. -/
theorem IsSound.not_ret (h : b.IsSound prototype?) {k : Block} (hk : k ∈ b.blocks)
    (hopen : b.isTerminated k = false) {i : Nat} (hi : i ∈ k.instructions.toList)
    {inst : Instruction} (hinst : b.instructions[i]? = some inst) (value : Option Operand) :
    inst.kind ≠ .ret value := by
  have hne : k.instructions.toList ≠ [] := List.ne_nil_of_mem hi
  rw [← List.dropLast_append_getLast hne, List.mem_append, List.mem_singleton] at hi
  rcases hi with hi | hi
  · exact h.ret_last k hk i hi inst hinst value
  · have hback : k.instructions.back? = some i := by
      rw [← Array.getLast?_toList, List.getLast?_eq_some_getLast hne, hi]
    intro hkind
    simp [isTerminated, hback, hinst, hkind, Kind.isTerminator] at hopen

/-- `check` finds the function of a call, and gives the type that it returns. -/
theorem exists_of_check_call {ret ty : Ty} {callee : Nat} {args : List Operand}
    (h : b.check ret prototype? (.call callee args) = .ok ty) :
    ∃ p, prototype? callee = some p ∧ ty = p.ret := by
  simp only [check, checkArity, bind, Except.bind] at h
  cases hp : prototype? callee with
  | none => simp only [hp, reduceCtorEq] at h
  -- Two checks can fail, for the number of the arguments and for their types.
  | some p =>
    by_cases hadmits : p.admits args.length
    · cases hargs : b.expectAll "call" args p.params with
      | error e => simp only [hp, hadmits, if_true, hargs, reduceCtorEq] at h
      | ok =>
        simp only [hp, hadmits, if_true, hargs] at h
        exact ⟨p, rfl, (Except.ok.inj h).symm⟩
    · simp only [hp, hadmits, Bool.false_eq_true, if_false, reduceCtorEq] at h

/-- The type that `check` gives tells whether an instruction has a name. -/
theorem isNamed_eq_false_iff {ret : Ty} {kind : Kind} {ty : Ty}
    (h : b.check ret prototype? kind = .ok ty) :
    kind.isNamed ty = false ↔ kind.IsUnnamed prototype? := by
  cases kind with
  | call callee args =>
    obtain ⟨p, hp, hty⟩ := exists_of_check_call h
    simp [Kind.isNamed, Kind.IsUnnamed, hp, hty]
  | _ => simp [Kind.isNamed, Kind.IsUnnamed]

/-- `Body.push` of a checked instruction keeps a body sound, if the block is not ended. -/
theorem IsSound.push (h : b.IsSound prototype?) {block : Nat} {k : Block}
    (hk : b.blocks[block]? = some k) (hopen : b.isTerminated k = false) {ret : Ty} {kind : Kind}
    {ty : Ty} (hcheck : b.check ret prototype? kind = .ok ty) (hint : String) :
    (b.push block kind ty hint).IsSound prototype? where
  nodup_listed := by
    have hnew : b.instructions.size ∉ b.listed := by simp [h.mem_listed]
    rw [(listed_push hk kind ty hint).nodup_iff]
    exact List.nodup_cons.mpr ⟨hnew, h.nodup_listed⟩
  mem_listed i := by
    rw [(listed_push hk kind ty hint).mem_iff, List.mem_cons, h.mem_listed, instructions_push_eq,
      Array.size_push]
    omega
  increasing k' hk' := by
    rcases mem_blocks_push hk hk' with hk' | rfl
    · exact h.increasing k' hk'
    · have hmem := Array.mem_of_getElem? hk
      rw [Array.toList_push, List.pairwise_append]
      refine ⟨h.increasing k hmem, List.pairwise_singleton .., fun i hi j hj => ?_⟩
      rw [List.mem_singleton.mp hj]
      exact h.lt_of_mem hmem hi
  ret_last k' hk' i hi inst hinst := by
    -- An index that was listed before belongs to an instruction that was there before.
    have hold : i < b.instructions.size → b.instructions[i]? = some inst := by
      intro hlt
      rwa [instructions_push_eq, Array.getElem?_push_lt hlt,
        ← Array.getElem?_eq_getElem hlt] at hinst
    rcases mem_blocks_push hk hk' with hk' | rfl
    · exact h.ret_last k' hk' i hi inst (hold (h.lt_of_mem hk' (List.dropLast_subset _ hi)))
    · have hmem := Array.mem_of_getElem? hk
      rw [Array.toList_push, List.dropLast_concat] at hi
      exact h.not_ret hmem hopen hi (hold (h.lt_of_mem hmem hi))
  nodup_names := by
    rw [localNames_push, List.nodup_append]
    refine ⟨h.nodup_names, by cases (b.pushed kind ty hint).name <;> simp, fun x hx y hy => ?_⟩
    rintro rfl
    exact b.freshName_notMem _ hint hy ((h.mem_names x).mp hx)
  mem_names name := by
    rw [localNames_push, names_push, taken_freshName, List.mem_append, List.mem_append, h.mem_names]
    exact or_comm
  unnamed inst hinst := by
    rw [instructions_push_eq, Array.mem_push] at hinst
    rcases hinst with hinst | rfl
    · exact h.unnamed inst hinst
    · exact (b.freshName_eq_none_iff _ hint).trans (isNamed_eq_false_iff hcheck)
  callees inst hinst callee args hkind := by
    rw [instructions_push_eq, Array.mem_push] at hinst
    rcases hinst with hinst | rfl
    · exact h.callees inst hinst callee args hkind
    · obtain rfl : kind = .call callee args := hkind
      obtain ⟨p, hp, -⟩ := exists_of_check_call hcheck
      exact ⟨p, hp⟩

end Body

/-! ### Sound modules -/

namespace Module

/-- `m.IsSound`: all bodies of `m` are sound among the functions of `m`. -/
def IsSound (m : Module) : Prop := ∀ f ∈ m.functions, ∀ b, f.body = some b → b.IsSound m.prototype?

variable {m m' : Module}

/-- A new body changes no prototype. -/
@[simp] theorem prototype?_setBody (m : Module) (i : Nat) (b : Body) :
    (m.setBody i b).prototype? = m.prototype? := by
  funext j
  unfold prototype? setBody
  rw [Array.getElem?_modify]
  split
  · cases m.functions[j]? <;> rfl
  · rfl

/-- `addFunction` changes no prototype of the functions before. -/
theorem prototype?_addFunction (f : Function) {i : Nat} {p : Prototype}
    (h : m.prototype? i = some p) :
    (m.addFunction f).2.prototype? i = some p := by
  obtain ⟨g, hg, rfl⟩ := Option.map_eq_some_iff.mp h
  have hlt : i < m.functions.size := (Array.getElem?_eq_some_iff.mp hg).1
  unfold prototype? addFunction
  rw [Array.getElem?_push_lt hlt, ← Array.getElem?_eq_getElem hlt, hg]
  rfl

/-- `setBody` keeps a module sound if the new body is. -/
theorem IsSound.setBody (h : m.IsSound) (i : Nat) {b : Body} (hb : b.IsSound m.prototype?) :
    (m.setBody i b).IsSound := by
  intro f hf b' hb'
  rw [prototype?_setBody]
  obtain ⟨j, hj⟩ := Array.getElem?_of_mem hf
  change (m.functions.modify i _)[j]? = some f at hj
  rw [Array.getElem?_modify] at hj
  split at hj
  · obtain ⟨f', -, rfl⟩ := Option.map_eq_some_iff.mp hj
    obtain rfl := Option.some.inj hb'
    exact hb
  · exact h f (Array.mem_of_getElem? hj) b' hb'

/-- `addFunction` keeps a module sound if the body of the function is. -/
theorem IsSound.addFunction (h : m.IsSound) {f : Function}
    (hf : ∀ b, f.body = some b → b.IsSound (m.addFunction f).2.prototype?) :
    (m.addFunction f).2.IsSound := by
  intro g hg b hb
  rcases Array.mem_push.mp hg with hg | rfl
  · exact (h g hg b hb).of_le fun _ _ => prototype?_addFunction f
  · exact hf b hb

/-- If `m.appendBlock` succeeds, it does `Body.appendBlock` to the body of the function. -/
theorem appendBlock_eq_ok {function i : Nat} {label : String}
    (h : m.appendBlock function label = .ok (i, m')) :
    ∃ f ∈ m.functions, ∃ b, f.body = some b ∧ m' = m.setBody function (b.appendBlock label).2 := by
  unfold Module.appendBlock at h
  split at h
  · cases h
  · next f hf =>
    split at h
    · cases h
    · next b hb =>
      obtain ⟨-, rfl⟩ := Prod.mk.inj (Except.ok.inj h)
      exact ⟨f, Array.mem_of_getElem? hf, b, hb, rfl⟩

/-- If `m.emit` succeeds, the instruction has passed `check` and the block is not ended, and it does
    `Body.push` to the body of the function. -/
theorem emit_eq_ok {cursor : Cursor} {kind : Kind} {hint : String} {i : Nat}
    (h : m.emit cursor kind hint = .ok (i, m')) :
    ∃ f ∈ m.functions, ∃ b, f.body = some b ∧
      ∃ ty, b.check f.prototype.ret m.prototype? kind = .ok ty ∧
      ∃ k, b.blocks[cursor.block]? = some k ∧ b.isTerminated k = false ∧
        m' = m.setBody cursor.function (b.push cursor.block kind ty hint) := by
  unfold Module.emit at h
  split at h
  · cases h
  · next f hf =>
    cases hbody : f.body with
    | none =>
      rw [hbody] at h
      -- Without a body, neither a call nor anything else is added.
      cases kind with
      | call callee args =>
        cases harity : checkArity m.prototype? callee args <;>
        · simp only [harity] at h
          cases h
      | _ => cases h
    | some b =>
      refine ⟨f, Array.mem_of_getElem? hf, b, hbody, ?_⟩
      simp only [hbody, Body.emit] at h
      cases hcheck : b.check f.prototype.ret m.prototype? kind with
      | error e =>
        rw [hcheck] at h
        cases h
      | ok ty =>
        simp only [hcheck, bind, Except.bind] at h
        cases hk : b.blocks[cursor.block]? with
        | none =>
          rw [hk] at h
          cases h
        | some k =>
          simp only [hk] at h
          cases hopen : b.isTerminated k with
          | true =>
            simp only [hopen, if_true] at h
            cases h
          | false =>
            simp only [hopen] at h
            obtain ⟨-, rfl⟩ := Prod.mk.inj (Except.ok.inj h)
            exact ⟨ty, rfl, k, rfl, hopen, rfl⟩

end Module

/-! ### Functions by name -/

namespace Module

/-- `m.IsLatest name i`: the function at `i` has this name, and no later one has it. -/
def IsLatest (m : Module) (name : String) (i : Nat) : Prop :=
  (∃ f, m.functions[i]? = some f ∧ f.name = name) ∧
    ∀ j f, m.functions[j]? = some f → f.name = name → j ≤ i

/-- `m.byName` is inverse to `m.functions`: `m.function? name = some i` iff `m.IsLatest name i`. -/
def Indexed (m : Module) : Prop := ∀ name i, m.function? name = some i ↔ m.IsLatest name i

variable {m : Module}

/-- A module without functions is indexed. -/
theorem indexed_empty (name : String) : Indexed { name } := by
  intro other i
  refine iff_of_false ?_ ?_
  · simp [function?, nameIndex]
  · rintro ⟨⟨f, hf, -⟩, -⟩
    simp at hf

/-- `addFunction` makes a function found by its name, and others as before. -/
theorem function?_addFunction (m : Module) (f : Function) (name : String) :
    (m.addFunction f).2.function? name =
      if f.name = name then some m.functions.size else m.function? name := by
  simp only [function?, addFunction, Std.TreeMap.getElem?_insert, Std.compare_eq_iff_eq]

/-- `addFunction` keeps a module indexed. -/
theorem Indexed.addFunction (h : m.Indexed) (f : Function) : (m.addFunction f).2.Indexed := by
  have hnew : (m.addFunction f).2.functions[m.functions.size]? = some f := Array.getElem?_push_size
  have hold : ∀ {j : Nat}, j ≠ m.functions.size →
      (m.addFunction f).2.functions[j]? = m.functions[j]? := fun hj => by
    rw [Module.addFunction, Array.getElem?_push, if_neg hj]
  have hlt : ∀ {j : Nat} {g : Function}, m.functions[j]? = some g →
      j < m.functions.size := fun hg =>
    (Array.getElem?_eq_some_iff.mp hg).1
  intro name i
  rw [function?_addFunction]
  by_cases hname : f.name = name
  · rw [if_pos hname, Option.some.injEq]
    -- The new function is behind all others, so it is the latest of its name.
    constructor
    · rintro rfl
      refine ⟨⟨f, hnew, hname⟩, fun j g hg _ => ?_⟩
      by_cases hj : j = m.functions.size
      · exact Nat.le_of_eq hj
      · exact Nat.le_of_lt (hlt (hold hj ▸ hg))
    · rintro ⟨⟨g, hg, -⟩, hle⟩
      by_contra hi
      have hi' := hlt (hold (Ne.symm hi) ▸ hg)
      exact absurd (hle _ f hnew hname) (Nat.not_le.mpr hi')
  · rw [if_neg hname, h name i]
    -- What has the name was there before.
    have hkept : ∀ {j : Nat} {g : Function}, g.name = name →
        ((m.addFunction f).2.functions[j]? = some g ↔ m.functions[j]? = some g) := by
      intro j g hg
      by_cases hj : j = m.functions.size
      · subst hj
        rw [hnew]
        refine iff_of_false (fun heq => hname (Option.some.inj heq ▸ hg)) fun heq => ?_
        exact Nat.lt_irrefl _ (hlt heq)
      · rw [hold hj]
    constructor
    · rintro ⟨⟨g, hg, hgname⟩, hle⟩
      exact ⟨⟨g, (hkept hgname).mpr hg, hgname⟩,
        fun j g' hg' hname' => hle j g' ((hkept hname').mp hg') hname'⟩
    · rintro ⟨⟨g, hg, hgname⟩, hle⟩
      exact ⟨⟨g, (hkept hgname).mp hg, hgname⟩,
        fun j g' hg' hname' => hle j g' ((hkept hname').mpr hg') hname'⟩

/-- `setBody` keeps a module indexed: the function keeps its name. -/
theorem Indexed.setBody (h : m.Indexed) (i : Nat) (b : Body) : (m.setBody i b).Indexed := by
  -- A body that is replaced leaves every name where it is.
  have hnames : ∀ (j : Nat) (name : String),
      (∃ f, (m.setBody i b).functions[j]? = some f ∧ f.name = name) ↔
      ∃ f, m.functions[j]? = some f ∧ f.name = name := by
    intro j name
    rw [Module.setBody, Array.getElem?_modify]
    by_cases hij : i = j
    · cases m.functions[j]? <;> simp [hij, Function.name]
    · rw [if_neg hij]
  intro name j
  rw [show (m.setBody i b).function? name = m.function? name from rfl, h name j]
  constructor
  · rintro ⟨hnamed, hle⟩
    refine ⟨(hnames j name).mpr hnamed, fun k f hf hname => ?_⟩
    obtain ⟨g, hg, hgname⟩ := (hnames k name).mp ⟨f, hf, hname⟩
    exact hle k g hg hgname
  · rintro ⟨hnamed, hle⟩
    refine ⟨(hnames j name).mp hnamed, fun k f hf hname => ?_⟩
    obtain ⟨g, hg, hgname⟩ := (hnames k name).mpr ⟨f, hf, hname⟩
    exact hle k g hg hgname

end Module

/-! ### Building step by step -/

/-- What can be asked for while a module is built. A new function is declared only or has an empty
    body. -/
inductive BuildStep where
  | addGlobal (bytes : ByteArray)
  | addFunction (prototype : Prototype) (isDefined : Bool)
  | appendBlock (function : Nat) (label : String)
  | emit (cursor : Cursor) (kind : Kind) (hint : String)

/-- The module after a step that may be refused. -/
def Module.orElse (m : Module) : Except BuildError (Nat × Module) → Module
  | .ok (_, m') => m'
  | .error _ => m

namespace BuildStep

/-- The module after a step. One that fails leaves it as it was. -/
def perform (m : Module) : BuildStep → Module
  | addGlobal bytes => (m.addGlobal bytes).2
  | addFunction prototype isDefined =>
    (m.addFunction ⟨prototype, if isDefined then some {} else none⟩).2
  | appendBlock function label => m.orElse (m.appendBlock function label)
  | emit cursor kind hint => m.orElse (m.emit cursor kind hint)

/-- The module that steps build, one after the other. -/
def build (name : String) (steps : List BuildStep) : Module := steps.foldl perform { name }

/-- Every step keeps a module sound, whether it fails or not. -/
theorem isSound_perform {m : Module} (h : m.IsSound) (step : BuildStep) :
    (step.perform m).IsSound := by
  -- A step that fails leaves the module as it was. One that succeeds changes one body.
  cases step with
  | addGlobal bytes => exact h
  | addFunction prototype isDefined =>
    refine h.addFunction fun b hb => ?_
    cases isDefined with
    | false => cases hb
    | true =>
      obtain rfl := Option.some.inj hb
      exact Body.isSound_empty _
  | appendBlock function label =>
    show (m.orElse (m.appendBlock function label)).IsSound
    rcases hresult : m.appendBlock function label with e | ⟨i, m'⟩
    · exact h
    · obtain ⟨f, hf, b, hb, rfl⟩ := Module.appendBlock_eq_ok hresult
      exact h.setBody function ((h f hf b hb).appendBlock label)
  | emit cursor kind hint =>
    show (m.orElse (m.emit cursor kind hint)).IsSound
    rcases hresult : m.emit cursor kind hint with e | ⟨i, m'⟩
    · exact h
    · obtain ⟨f, hf, b, hb, ty, hcheck, k, hk, hopen, rfl⟩ := Module.emit_eq_ok hresult
      exact h.setBody cursor.function ((h f hf b hb).push hk hopen hcheck hint)

/-- Every step keeps a module indexed, whether it fails or not. -/
theorem indexed_perform {m : Module} (h : m.Indexed) (step : BuildStep) :
    (step.perform m).Indexed := by
  cases step with
  | addGlobal bytes => exact h
  | addFunction prototype isDefined => exact h.addFunction _
  -- A step that is refused leaves the module, and any other replaces one body.
  | appendBlock function label =>
    show (m.orElse (m.appendBlock function label)).Indexed
    rcases hresult : m.appendBlock function label with e | ⟨i, m'⟩
    · exact h
    · obtain ⟨f, -, b, -, rfl⟩ := Module.appendBlock_eq_ok hresult
      exact h.setBody function _
  | emit cursor kind hint =>
    show (m.orElse (m.emit cursor kind hint)).Indexed
    rcases hresult : m.emit cursor kind hint with e | ⟨i, m'⟩
    · exact h
    · obtain ⟨f, -, b, -, ty, -, k, -, -, rfl⟩ := Module.emit_eq_ok hresult
      exact h.setBody cursor.function _

/-- What holds of a module without functions and is kept by every step holds of `build name
    steps`. -/
theorem build_of_perform {P : Module → Prop} (hstep : ∀ m step, P m → P (perform m step))
    {name : String} (hempty : P { name }) (steps : List BuildStep) : P (build name steps) := by
  have hrun : ∀ m : Module, P m → P (steps.foldl perform m) := by
    induction steps with
    | nil => exact fun m hm => hm
    | cons step steps ih => exact fun m hm => ih _ (hstep m step hm)
  exact hrun _ hempty

end BuildStep

/-- All bodies of a module have their structure, by whichever steps it was built, in whichever
    order, and whether these failed or not. -/
theorem isSound_build (name : String) (steps : List BuildStep) :
    (BuildStep.build name steps).IsSound := by
  refine BuildStep.build_of_perform (P := Module.IsSound)
    (fun m step hm => BuildStep.isSound_perform hm step) ?_ steps
  intro f hf
  simp at hf

/-- By whichever steps a module was built, a name leads to the latest function that has it. -/
theorem indexed_build (name : String) (steps : List BuildStep) :
    (BuildStep.build name steps).Indexed :=
  BuildStep.build_of_perform (P := Module.Indexed)
  (fun _ step hm => BuildStep.indexed_perform hm step)
    (Module.indexed_empty name) steps

end Straightline
