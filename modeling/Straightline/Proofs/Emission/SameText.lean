import Straightline.Proofs.Emission.Listing
import Straightline.Proofs.Emission.WellFormed
import Straightline.Proofs.Ir.Recovery

/-!
# Programs with the same text

The text of a finished program determines the program, up to the table from which new names are
drawn.

* `Body.kind_eq_of_kindText`: instructions that fit and have the same text do the same, if their
  operands can be told by type and text.
* `Draft.operand_eq` and `Draft.instruction_eq`: in two drafts that agree up to an instruction, the
  operands can be told, and so the instruction is the same. By induction all are:
  `Draft.instructions_eq`.
* `Draft.eq_of_text_eq` puts the parts of a text together.
* `Module.Finished.withoutCounters_eq_of_text_eq` says it of all finished programs.
-/

namespace Straightline

open Draft

/-! ### What an instruction does -/

namespace Body

variable {b b' : Body} {m m' : Module}

/-- `Tells b b' m m' xs xs'`: operands of `xs` and `xs'` that have the same text, and the same type
    if they are numbers, are the same. -/
def Tells (b b' : Body) (m m' : Module) (xs xs' : List Operand) : Prop :=
  ∀ x ∈ xs, ∀ x' ∈ xs', (x.sigil? = none → b.typeOf x = b'.typeOf x') →
    b.operandText m x = b'.operandText m' x' → x = x'

/-- Two doubles with a comma between them are told by the text of both. -/
theorem pair_eq {x y x' y' : Operand} (hty : b.typeOf x = .double ∧ b.typeOf y = .double)
    (hty' : b'.typeOf x' = .double ∧ b'.typeOf y' = .double) (hx : ∀ z ∈ [x, y], b.IsNamed m z)
    (hx' : ∀ z ∈ [x', y'], b'.IsNamed m' z) (htells : Tells b b' m m' [x, y] [x', y'])
    (h : (b.operandText m x).toList ++ (", ".toList ++ (b.operandText m y).toList) =
      (b'.operandText m' x').toList ++ (", ".toList ++ (b'.operandText m' y').toList)) :
    x = x' ∧ y = y' := by
  obtain ⟨hfirst, hrest⟩ := operandText_append_inj (hx x (by simp)) (hx' x' (by simp))
    (Breaks.append (by decide) (by decide) _) (Breaks.append (by decide) (by decide) _) h
  have hsecond := String.toList_inj.mp (List.append_cancel_left hrest)
  exact ⟨htells x (by simp) x' (by simp) (fun _ => hty.1.trans hty'.1.symm) hfirst,
    htells y (by simp) y' (by simp) (fun _ => hty.2.trans hty'.2.symm) hsecond⟩

/-- The address of a slot is a result, which is told by its name alone. -/
theorem IsSlot.sigil?_ne_none {x : Operand} (h : b.IsSlot x) : x.sigil? ≠ none := by
  obtain ⟨i, _, rfl, -⟩ := h
  simp [Operand.sigil?]

variable {n n' : Nat}

/-- Stores with the same text are the same. -/
theorem store_eq_of_kindText {value ptr value' ptr' : Operand} (hptr : b.IsSlot ptr)
    (hx : ∀ x ∈ [value, ptr], b.IsNamed m x) (hx' : ∀ x ∈ [value', ptr'], b'.IsNamed m' x)
    (htells : Tells b b' m m' [value, ptr] [value', ptr'])
    (h : b.kindText m (.store value ptr) = b'.kindText m' (.store value' ptr')) :
    Kind.store value ptr = .store value' ptr' := by
  replace h := congrArg String.toList h
  simp only [kindText, String.toList_append, List.append_assoc] at h
  obtain ⟨hty, hvalue, h⟩ := typedText_append_inj (hx value (by simp)) (hx' value' (by simp))
    (Breaks.append (by decide) (by decide) _) (Breaks.append (by decide) (by decide) _)
    (List.append_cancel_left h)
  -- With the type of the value, the alignment behind the address is the same.
  rw [hty] at h
  have haddress := List.append_cancel_right (List.append_cancel_left h)
  rw [htells value (by simp) value' (by simp) (fun _ => hty) hvalue,
    htells ptr (by simp) ptr' (by simp) (fun hnone => absurd hnone hptr.sigil?_ne_none)
      (String.toList_inj.mp haddress)]

/-- Calls of `printf` with the same text have the same arguments. -/
theorem call_eq_of_kindText {args args' : List Operand}
    (hargs : ∃ k < n, ∃ x, args = [.global k, x]) (hargs' : ∃ k < n', ∃ x, args' = [.global k, x])
    (hx : ∀ x ∈ args, b.IsNamed m x) (hx' : ∀ x ∈ args', b'.IsNamed m' x)
    (htells : Tells b b' m m' args args') (hp : m.prototype? 1 = some printfPrototype)
    (hp' : m'.prototype? 1 = some printfPrototype)
    (h : b.kindText m (.call 1 args) = b'.kindText m' (.call 1 args')) :
    args = args' := by
  obtain ⟨k, -, x, rfl⟩ := hargs
  obtain ⟨k', -, x', rfl⟩ := hargs'
  replace h := congrArg String.toList h
  simp only [kindText, hp, hp', List.map_cons, List.map_nil, String.intercalate_cons_cons,
    String.intercalate_singleton, String.toList_append, List.append_assoc] at h
  -- Both calls name the same function, up to the parenthesis.
  replace h := List.append_cancel_left (List.append_cancel_left (List.append_cancel_left
    (List.append_cancel_left (List.append_cancel_left h))))
  obtain ⟨hty, hformat, h⟩ := typedText_append_inj (hx _ (by simp)) (hx' _ (by simp))
    (Breaks.append (by decide) (by decide) _) (Breaks.append (by decide) (by decide) _) h
  obtain ⟨hty', hvalue, -⟩ := typedText_append_inj (hx x (by simp)) (hx' x' (by simp)) (by decide)
    (by decide) (List.append_cancel_left h)
  rw [htells (.global k) (by simp) (.global k') (by simp) (fun _ => hty) hformat,
    htells x (by simp) x' (by simp) (fun _ => hty') hvalue]

/-- The first word of `kindText` is the opcode. -/
theorem opcode_eq_of_kindText {kind kind' : Kind}
    (h : b.kindText m kind = b'.kindText m' kind') : kind.opcode = kind'.opcode := by
  obtain ⟨rest, hrest⟩ := b.exists_kindText m kind
  obtain ⟨rest', hrest'⟩ := b'.exists_kindText m' kind'
  have hlist := congrArg String.toList h
  rw [hrest, hrest'] at hlist
  have hword :=
    (append_cons_inj kind.opcode.blank_notMem_text.1 kind'.opcode.blank_notMem_text.1 hlist).1
  exact Opcode.text_injective (String.toList_inj.mp hword)

/-- Instructions that fit and have the same `kindText` are the same. -/
theorem kind_eq_of_kindText {kind kind' : Kind} (hk : b.Fits n kind) (hk' : b'.Fits n' kind')
    (hx : ∀ x ∈ kind.operands, b.IsNamed m x) (hx' : ∀ x ∈ kind'.operands, b'.IsNamed m' x)
    (htells : Tells b b' m m' kind.operands kind'.operands)
    (hp : kind.isCall = true → m.prototype? 1 = some printfPrototype)
    (hp' : kind'.isCall = true → m'.prototype? 1 = some printfPrototype)
    (h : b.kindText m kind = b'.kindText m' kind') : kind = kind' := by
  have hopcode := opcode_eq_of_kindText h
  have hlist := congrArg String.toList h
  -- The opcodes agree, so only the same kinds are left. What follows the opcode tells the operands.
  cases kind with
  | alloca ty =>
    cases kind' with
    | alloca ty' => rw [show ty = .double from hk, show ty' = .double from hk']
    | _ => cases hopcode
  | load ty ptr =>
    cases kind' with
    | load ty' ptr' =>
      obtain ⟨rfl, hslot⟩ := hk
      obtain ⟨rfl, -⟩ := hk'
      simp only [kindText, String.toList_append, List.append_assoc] at hlist
      have hptr := List.append_cancel_right (List.append_cancel_left (List.append_cancel_left
        (List.append_cancel_left hlist)))
      rw [htells ptr (by simp [Kind.operands]) ptr' (by simp [Kind.operands])
        (fun hnone => absurd hnone hslot.sigil?_ne_none) (String.toList_inj.mp hptr)]
    | _ => cases hopcode
  | store value ptr =>
    cases kind' with
    | store value' ptr' => exact store_eq_of_kindText hk hx hx' htells h
    | _ => cases hopcode
  | binary op lhs rhs =>
    cases kind' with
    | binary op' lhs' rhs' =>
      obtain rfl := Opcode.arithmetic.inj hopcode
      simp only [kindText, String.toList_append, List.append_assoc] at hlist
      obtain ⟨rfl, rfl⟩ := pair_eq hk hk' hx hx' htells
        (List.append_cancel_left (List.append_cancel_left hlist))
      rfl
    | _ => cases hopcode
  | compare condition lhs rhs =>
    cases kind' with
    | compare condition' lhs' rhs' =>
      have hword : ∀ c : Double.Comparison, IsWord c.keyword.toList := by
        intro c
        cases c <;> decide
      simp only [kindText, String.toList_append, List.append_assoc] at hlist
      obtain ⟨hcondition, hrest⟩ := (hword _).append_inj (hword _)
        (Breaks.append (by decide) (by decide) _) (Breaks.append (by decide) (by decide) _)
        (List.append_cancel_left hlist)
      obtain rfl := Double.Comparison.keyword_injective (String.toList_inj.mp hcondition)
      obtain ⟨rfl, rfl⟩ := pair_eq hk hk' hx hx' htells (List.append_cancel_left hrest)
      rfl
    | _ => cases hopcode
  | widen value =>
    cases kind' with
    | widen value' =>
      simp only [kindText, String.toList_append, List.append_assoc] at hlist
      obtain ⟨hty, hvalue, -⟩ := typedText_append_inj (hx value (by simp [Kind.operands]))
        (hx' value' (by simp [Kind.operands])) (by decide) (by decide)
        (List.append_cancel_left hlist)
      rw [htells value (by simp [Kind.operands]) value' (by simp [Kind.operands])
        (fun _ => hty) hvalue]
    | _ => cases hopcode
  | call callee args =>
    cases kind' with
    | call callee' args' =>
      obtain ⟨rfl, hargs⟩ := hk
      obtain ⟨rfl, hargs'⟩ := hk'
      rw [call_eq_of_kindText hargs hargs' hx hx' htells (hp rfl) (hp' rfl) h]
    | _ => cases hopcode
  | ret value =>
    cases kind' with
    | ret value' => rw [show value = _ from hk, show value' = _ from hk']
    | _ => cases hopcode

/-- `instructionText` tells the name of a result from what the instruction does: no `kindText`
    starts with `%`. -/
theorem instructionText_inj {inst inst' : Instruction}
    (h : b.instructionText m inst = b'.instructionText m' inst') :
    inst.name = inst'.name ∧ b.kindText m inst.kind = b'.kindText m' inst'.kind := by
  have hname : ∀ {b : Body} {m : Module} (kind : Kind) (name : String)
      (rest : List Char), (localName name).toList ++ rest ≠ (b.kindText m kind).toList := by
    intro b m kind name rest heq
    obtain ⟨tail, htail⟩ := b.exists_kindText m kind
    obtain ⟨-, c, cs, hc, hne⟩ := kind.opcode.blank_notMem_text
    have hhead : ((localName name).toList ++ rest).head? = some '%' := by
      rw [List.head?_append, head?_localName]
      rfl
    rw [heq, htail, hc] at hhead
    exact hne (Option.some.inj hhead)
  replace h := congrArg String.toList h
  unfold instructionText at h
  simp only [String.toList_append, List.append_assoc] at h
  replace h := List.append_cancel_left h
  -- Both have a name, or neither.
  cases hi : inst.name with
  | none =>
    cases hi' : inst'.name with
    | none =>
      simp only [hi, hi'] at h
      exact ⟨rfl, String.toList_inj.mp h⟩
    | some name' =>
      simp only [hi, hi', String.toList_append, List.append_assoc] at h
      exact absurd h.symm (hname _ _ _)
  | some name =>
    cases hi' : inst'.name with
    | none =>
      simp only [hi, hi', String.toList_append, List.append_assoc] at h
      exact absurd h (hname _ _ _)
    | some name' =>
      simp only [hi, hi', String.toList_append, List.append_assoc] at h
      obtain ⟨hresult, hrest⟩ :=
        (isOperandText_localName name).append_inj (isOperandText_localName name')
        (Breaks.append (by decide) (by decide) _) (Breaks.append (by decide) (by decide) _) h
      rw [localName_injective (String.toList_inj.mp hresult)]
      exact ⟨rfl, String.toList_inj.mp (List.append_cancel_left hrest)⟩

end Body

/-! ### Drafts that agree -/

namespace Draft

variable {d d' : Draft} {j : Nat}

/-- A constant of a draft is written by its position: `number = k` for the global at `k`. -/
theorem operandText_global {k : Nat} (h : d.IsUsable j (.global k)) {name : String} :
    d.body.operandText (d.module name) (.global k) = "@" ++ Decimal.text k := by
  have hk : k < d.constants.size := h
  simp [Body.operandText, Draft.module, hk]

/-- In drafts that agree in front of `j`, the operands that `j` may use are told by type and
    text. -/
theorem operand_eq (hagree : ∀ i < j, d.instructions[i]? = d'.instructions[i]?)
    (hnames : d'.UniqueNames) {x x' : Operand} (hx : d.IsUsable j x) (hx' : d'.IsUsable j x')
    (hty : x.sigil? = none → d.body.typeOf x = d'.body.typeOf x') {name : String}
    (h : d.body.operandText (d.module name) x = d'.body.operandText (d'.module name) x') :
    x = x' := by
  have hsigil : x.sigil? = x'.sigil? := by
    rw [Body.sigil?_eq (hx.isNamed name), Body.sigil?_eq (hx'.isNamed name), h]
  cases x with
  | double value =>
    cases x' with
    | double value' => rw [Double.constantText_injective (String.ofList_inj.mp h)]
    | i32 => cases hty rfl
    | inst | global => cases hsigil
  | i32 value =>
    cases x' with
    | double => cases hty rfl
    | i32 value' => rw [Int32.toInt_inj.mp (Decimal.intText_injective h)]
    | inst | global => cases hsigil
  | global k =>
    cases x' with
    | global k' =>
      rw [operandText_global hx, operandText_global hx'] at h
      have hlist := congrArg String.toList h
      rw [String.toList_append, String.toList_append] at hlist
      rw [Decimal.text_injective (String.toList_inj.mp (List.append_cancel_left hlist))]
    | double | i32 | inst => cases hsigil
  | inst i =>
    cases x' with
    | inst i' =>
      obtain ⟨hlt, inst, name, hi, hname⟩ := hx
      obtain ⟨-, inst', name', hi', hname'⟩ := hx'
      -- The names are the same, and each of them belongs to one instruction of the second draft.
      simp only [Body.operandText, instructions_body, hi, hi', Option.bind_some, hname, hname'] at h
      obtain rfl := localName_injective h
      rw [hagree i hlt] at hi
      rw [hnames.index_unique hi hi' hname hname']
    | double | i32 | global => cases hsigil

/-- In drafts that agree in front of `j`, instructions at `j` with the same text are the same. -/
theorem instruction_eq (hagree : ∀ i < j, d.instructions[i]? = d'.instructions[i]?)
    (hnames : d'.UniqueNames) {inst inst' : Instruction} (hinst : d.SoundAt j inst)
    (hinst' : d'.SoundAt j inst') {name : String}
    (hp : inst.kind.isCall = true → (d.module name).prototype? 1 = some printfPrototype)
    (hp' : inst'.kind.isCall = true → (d'.module name).prototype? 1 = some printfPrototype)
    (h : d.body.instructionText (d.module name) inst =
      d'.body.instructionText (d'.module name) inst') :
    inst = inst' := by
  have htells : Body.Tells d.body d'.body (d.module name) (d'.module name) inst.kind.operands
      inst'.kind.operands := by
    intro x hx x' hx' hty htext
    exact operand_eq hagree hnames (hinst.usable x hx) (hinst'.usable x' hx') hty htext
  obtain ⟨hname, htext⟩ := Body.instructionText_inj h
  have hkind : inst.kind = inst'.kind :=
    Body.kind_eq_of_kindText hinst.fits hinst'.fits (fun x hx => (hinst.usable x hx).isNamed name)
      (fun x hx => (hinst'.usable x hx).isNamed name) htells hp hp' htext
  -- The type is not printed for every kind, but the kind determines it.
  have hty : inst.ty = inst'.ty := by rw [hinst.ty, hinst'.ty, hkind]
  cases inst
  cases inst'
  exact congr (congrArg₂ Instruction.mk hkind hty) hname

/-- Regular drafts whose instructions have the same texts have the same instructions. -/
theorem instructions_eq (hd : d.Regular) (hd' : d'.Regular) {name : String}
    (h : d.instructions.toList.map (d.body.instructionText (d.module name)) =
      d'.instructions.toList.map (d'.body.instructionText (d'.module name))) :
    d.instructions = d'.instructions := by
  have hsize : d.instructions.size = d'.instructions.size := by simpa using congrArg List.length h
  refine Array.ext_getElem? fun j => ?_
  -- An instruction uses earlier ones only, and these are the same.
  induction j using Nat.strongRecOn with
  | ind j ih =>
    by_cases hj : j < d.instructions.size
    · have hi := Array.getElem?_eq_getElem hj
      have hi' := Array.getElem?_eq_getElem (hsize ▸ hj)
      have htext := congrArg (·[j]?) h
      simp only [List.getElem?_map, Array.getElem?_toList, hi, hi', Option.map_some,
        Option.some.injEq] at htext
      rw [hi, hi']
      exact congrArg some (instruction_eq ih hd'.names (hd.sound j _ hi) (hd'.sound j _ hi')
        (fun hcall => hd.prototype? (Array.mem_of_getElem? hi) hcall name)
        (fun hcall => hd'.prototype? (Array.mem_of_getElem? hi') hcall name) htext)
    · rw [Array.getElem?_eq_none (by omega), Array.getElem?_eq_none (by omega)]

/-! ### Texts of programs -/

/-- The lines of the constants and of `main` up to its label. -/
def frontLines (d : Draft) (name : String) : List String := (d.module name).globalLines ++ [""]

/-- All lines behind the header. -/
def programLines (d : Draft) (name : String) : List String :=
  d.frontLines name ++ ("define " ++ mainPrototype.text ++ " \x7b") ::
    ("entry:" :: d.instructions.toList.map (d.body.instructionText (d.module name)) ++
      "\x7d" :: d.declarationLines)

/-- The lines of a program are those of its head and `programLines`. -/
theorem lines_module (d : Draft) (name : String) :
    (d.module name).lines = (d.module name).headerLines ++ d.programLines name := by
  rw [Module.lines, lines_functions, lines_main, programLines, frontLines]
  simp

/-- A line of `frontLines` is blank or that of a constant. -/
theorem mem_frontLines {line : String} {name : String} (h : line ∈ d.frontLines name) :
    line = "" ∨ ∃ g : Global, line = g.text := by
  rw [frontLines, Module.globalLines, List.mem_append] at h
  rcases h with h | h
  · split at h
    · cases h
    · rcases List.mem_cons.mp h with h | h
      · exact .inl h
      · obtain ⟨g, -, rfl⟩ := List.mem_map.mp h
        exact .inr ⟨g, rfl⟩
  · exact .inl (List.mem_singleton.mp h)

/-- No line behind the head has a newline in it. -/
theorem isLine_programLines (d : Draft) (name : String) :
    ∀ line ∈ d.programLines name, IsLine line := by
  intro line hline
  rw [programLines, List.mem_append, List.mem_cons, List.mem_append, List.mem_cons,
    List.mem_cons] at hline
  -- In turn: the constants, a blank line, the definition of `main`, its label and instructions, its
  -- brace, and the declaration.
  rcases hline with hline | rfl | (rfl | hline) | rfl | hline
  · rcases mem_frontLines hline with rfl | ⟨g, rfl⟩
    · decide
    · exact isLine_globalText g
  · decide
  · decide
  · obtain ⟨inst, -, rfl⟩ := List.mem_map.mp hline
    exact d.isLine_instructionText name inst
  · decide
  · unfold declarationLines at hline
    split at hline
    · revert line
      decide
    · cases hline

/-- The lines of constants determine them. -/
theorem constants_eq {name : String} (h : d.frontLines name = d'.frontLines name) :
    d.constants = d'.constants := by
  have hconstants : ∀ d : Draft, (d.module name).globals.map (·.bytes) = d.constants := by
    intro d
    refine Array.ext_getElem? fun k => ?_
    simp [Draft.module, Array.getElem?_mapIdx, Function.comp_def]
  have hglobals : (d.module name).globals = (d'.module name).globals := by
    have hlines := List.append_cancel_right h
    unfold Module.globalLines at hlines
    -- Without constants there is no line for them, not even a blank one.
    cases hempty : (d.module name).globals.isEmpty with
    | true =>
      cases hempty' : (d'.module name).globals.isEmpty with
      | true => rw [Array.isEmpty_iff.mp hempty, Array.isEmpty_iff.mp hempty']
      | false => simp [hempty, hempty'] at hlines
    | false =>
      cases hempty' : (d'.module name).globals.isEmpty with
      | true => simp [hempty, hempty'] at hlines
      | false =>
        simp only [hempty, hempty', Bool.false_eq_true, if_false, List.cons.injEq,
          true_and] at hlines
        exact Array.toList_inj.mp
          (List.map_injective_iff.mpr (fun _ _ => Global.text_injective) hlines)
  rw [← hconstants d, hglobals, hconstants]

/-- Regular drafts whose programs have the same text have the same constants and instructions, and
    both declare `printf` or neither. -/
theorem eq_of_text_eq (hd : d.Regular) (hd' : d'.Regular) {name : String}
    (h : (d.module name).text = (d'.module name).text) :
    d.constants = d'.constants ∧ d.instructions = d'.instructions ∧
      d.declaresPrintf = d'.declaresPrintf := by
  have hlines : d.programLines name = d'.programLines name := by
    refine lines_inj (d.isLine_programLines name) (d'.isLine_programLines name) ?_
    rw [Module.text, Module.text, lines_module, lines_module, List.map_append, List.map_append,
      String.join_append, String.join_append] at h
    have hlist := congrArg String.toList h
    rw [String.toList_append, String.toList_append] at hlist
    exact String.toList_inj.mp (List.append_cancel_left hlist)
  -- The definition of `main` starts behind the constants, and its brace stands behind the
  -- instructions.
  have hdefine : ∀ d : Draft, "define " ++ mainPrototype.text ++ " \x7b" ∉ d.frontLines name := by
    intro d hmem
    rcases mem_frontLines hmem with hblank | ⟨g, hg⟩
    · exact absurd hblank (by decide)
    · have hhead : g.text.toList.head? = some '@' := by
        simp only [Global.text, String.toList_append, List.append_assoc]
        rfl
      rw [← hg] at hhead
      exact absurd hhead (by decide)
  have hbrace : ∀ d : Draft, "\x7d" ∉
      "entry:" :: d.instructions.toList.map (d.body.instructionText (d.module name)) := by
    intro d hmem
    rcases List.mem_cons.mp hmem with hentry | hmem
    · exact absurd hentry (by decide)
    · obtain ⟨inst, -, hinst⟩ := List.mem_map.mp hmem
      have hhead : (d.body.instructionText (d.module name) inst).toList.head? = some ' ' := by
        simp only [Body.instructionText, String.toList_append, List.append_assoc]
        rfl
      rw [hinst] at hhead
      exact absurd hhead (by decide)
  obtain ⟨hfront, hmain⟩ := append_cons_inj (hdefine d) (hdefine d') hlines
  obtain ⟨hinstructions, hdeclaration⟩ := append_cons_inj (hbrace d) (hbrace d') hmain
  refine ⟨constants_eq hfront, instructions_eq hd hd' (List.cons.inj hinstructions).2, ?_⟩
  unfold declarationLines at hdeclaration
  cases hp : d.declaresPrintf <;> cases hp' : d'.declaresPrintf <;> simp_all

end Draft

/-! ### Finished programs -/

/-- The body without the number that its last made-up name has. -/
def Body.withoutCounter (b : Body) : Body := { b with names := { b.names with counter := 0 } }

/-- The module without the numbers from which names are made up. -/
def Module.withoutCounters (m : Module) : Module :=
  { m with functions := m.functions.map fun f => { f with body := f.body.map Body.withoutCounter } }

/-- The programs that are finished under a name: those that scripts are compiled to, and those that
    calls and scripts lead to. -/
inductive Module.Finished (name : String) : Module → Prop
  | script {source : String} {policy : ReadPolicy} {m : Module} :
    compile source ⟨name, policy⟩ = .ok m → Finished name m
  | calls {policy : ReadPolicy} {c c' : Compilation} {handles : List Operand} :
    Compilation.Reachable ⟨name, policy⟩ c handles → Emit.finish c = (.ok (), c') →
      Finished name c'.module

/-- What `compile` gives is the module of the finished compilation. -/
theorem exists_finish_of_compile {source : String} {options : Options} {m : Module}
    (h : compile source options = .ok m) :
    ∃ c, Emit.finish (compileInto source { options }).2 = (.ok (), c) ∧ m = c.module := by
  rcases hinto : compileInto source { options } with ⟨e | u, c⟩
  · rw [compile_of_error hinto] at h
    cases h
  · rcases hfinish : Emit.finish c with ⟨e | u, c'⟩
    · rw [compile_of_finish_error hinto hfinish] at h
      cases h
    · rw [compile_of_finish hinto hfinish] at h
      exact ⟨c', rfl, (Except.ok.inj h).symm⟩

/-- A finished program is that of a regular draft. -/
theorem Module.Finished.exists_regular {name : String} {m : Module} (h : m.Finished name) :
    ∃ d : Draft, d.Regular ∧ m = d.module name := by
  -- A script makes calls too, so both cases are a reachable compilation that was finished.
  have hreachable : ∀ {policy : ReadPolicy} {c c' : Compilation} {handles : List Operand},
      Compilation.Reachable ⟨name, policy⟩ c handles → Emit.finish c = (.ok (), c') →
        ∃ d : Draft, d.Regular ∧ c'.module = d.module name := by
    intro policy c c' handles hc hfinish
    obtain ⟨d, hfollows, hbuilt, -⟩ := hc.exists_built
    obtain ⟨c'', hfinish', hmodule⟩ := hfollows.finish
    obtain ⟨-, rfl⟩ := Prod.mk.inj (hfinish.symm.trans hfinish')
    exact ⟨d.finish, hbuilt.regular.finish, hmodule⟩
  cases h with
  | script h =>
    obtain ⟨c, hfinish, rfl⟩ := exists_finish_of_compile h
    exact hreachable (.script _ .new) hfinish
  | calls hc hfinish => exact hreachable hc hfinish

/-- Two programs that are `Finished` under the same name and have the same text are the same: they
    have the same constants and the same functions, with the same prototypes, blocks, instructions
    and local names. Only the numbers from which names were made up can differ. -/
theorem Module.Finished.withoutCounters_eq_of_text_eq {name : String} {m m' : Module}
    (hm : m.Finished name) (hm' : m'.Finished name) (h : m.text = m'.text) :
    m.withoutCounters = m'.withoutCounters := by
  obtain ⟨d, hd, rfl⟩ := hm.exists_regular
  obtain ⟨d', hd', rfl⟩ := hm'.exists_regular
  obtain ⟨hconstants, hinstructions, hprintf⟩ := Draft.eq_of_text_eq hd hd' h
  have htaken : d.names.taken = d'.names.taken := by
    rw [hd.taken, hd'.taken]
    simp only [Body.localNames, Draft.body, Draft.block, hinstructions]
  simp [Module.withoutCounters, Body.withoutCounter, Draft.module, Draft.body, Draft.block,
    hconstants, hinstructions, hprintf, htaken]

/-- What the calls of a script that writes, reads and prints a variable lead to. -/
def sampleCompilation : Compilation :=
  let c₁ :=
    ((Call.write "x" (.double ⟨0x3FF0000000000000⟩)).emit { options := ⟨"top", .preserve⟩ }).2
  let c₂ := ((Call.read "x").emit c₁).2
  ((Call.printNumber (.inst 2)).emit c₂).2

/-- The script and the calls lead to the same program, under different policies. -/
theorem Module.Finished.withoutCounters_eq_sample :
    ∃ m c, compile "x = 1; print x" ⟨"top", .zeroInit⟩ = .ok m ∧
      Emit.finish sampleCompilation = (.ok (), c) ∧
      m.Finished "top" ∧ c.module.Finished "top" ∧ m.text = c.module.text ∧
      m.withoutCounters = c.module.withoutCounters := by
  obtain ⟨m, hm, hcompile⟩ : ∃ m, m = (Emit.finish sampleCompilation).2.module ∧
      compile "x = 1; print x" ⟨"top", .zeroInit⟩ = .ok m := by
    refine ⟨_, ?_, parsesTo_assign_print.compile_eq_ok (by simp)⟩
    rfl
  -- The script and the calls make the same module, but the calls are under another policy.
  have htext := congrArg Module.text hm
  have h₁ : Compilation.Reachable ⟨"top", .preserve⟩ _ _ :=
    .call (Call.write "x" (.double ⟨0x3FF0000000000000⟩)) .new
      (List.forall_mem_singleton.mpr (.inl trivial))
  have h₂ := h₁.call (Call.read "x") (List.forall_mem_nil _)
  have h₃ : Compilation.Reachable ⟨"top", .preserve⟩ sampleCompilation _ :=
    h₂.call (Call.printNumber (.inst 2)) (List.forall_mem_singleton.mpr (.inr (by decide +kernel)))
  have hfinish : Emit.finish sampleCompilation =
      (.ok (), (Emit.finish sampleCompilation).2) := by rfl
  exact ⟨m, _, hcompile, hfinish, .script hcompile, .calls h₃ hfinish, htext,
    (Module.Finished.script hcompile).withoutCounters_eq_of_text_eq (.calls h₃ hfinish) htext⟩

end Straightline
