import Mathlib.Data.List.Forall2
import Mathlib.Data.List.Induction
import Straightline.Ir.Builder
import Straightline.Proofs.Emission.Listing
import Straightline.Proofs.Ir.Recovery
import Straightline.Proofs.Script.Lowering

/-!
# The layout of a module's text

The structure of a module says which lines its text has.

* `Module.Assembled` are the modules that come from an empty one by adding constants, functions,
  blocks and instructions.
* `Module.layout` are the kinds of lines that the structure calls for, and `LaidOut` says that a
  text has these lines and no others.
* `Module.Assembled.laidOut_iff`: a text is laid out so iff the names that are written as they are
  have no newline: those of the module, of its functions and of its blocks. Other names and
  constants never matter.
-/

namespace Straightline

/-! ### Kinds of lines -/

/-- What a line of a text is there for. -/
inductive LineKind where
  | moduleId
  | sourceName
  | blank
  | constant (number : Nat)
  | declaration (name : String)
  | definition (name : String)
  | label (name : String)
  | instruction
  | brace
  deriving DecidableEq

namespace LineKind

/-- `kind.Fits line`: the line looks as its kind says. -/
def Fits : LineKind → String → Prop
  | moduleId, line => ∃ rest, line = "; ModuleID = '" ++ rest
  | sourceName, line => ∃ rest, line = "source_filename = \"" ++ rest
  | blank, line => line = ""
  | constant number, line => ∃ rest, line = "@" ++ Decimal.text number ++ " = " ++ rest
  | declaration name, line =>
    ∃ ret params, line = "declare " ++ (ret ++ " @" ++ name ++ "(" ++ params ++ ")")
  | definition name, line =>
    ∃ ret params, line = "define " ++ (ret ++ " @" ++ name ++ "(" ++ params ++ ")") ++ " \x7b"
  | label name, line => line = name ++ ":"
  | instruction, line => ∃ rest, line = "  " ++ rest
  | brace, line => line = "\x7d"

end LineKind

/-- The lines of a block: its label and one for each instruction. -/
def Block.layout (k : Block) : List LineKind :=
  .label k.label :: k.instructions.toList.map fun _ => .instruction

/-- The lines of a function: one, or those of its blocks between two others. -/
def Function.layout (f : Function) : List LineKind :=
  match f.body with
  | none => [.declaration f.name]
  | some b => .definition f.name :: b.blocks.toList.flatMap Block.layout ++ [.brace]

/-- The lines of a module: two at its head, one for each constant behind a blank one, and those of
    each function behind a blank one. -/
def Module.layout (m : Module) : List LineKind :=
  [.moduleId, .sourceName] ++
    (if m.globals.isEmpty then []
      else .blank :: m.globals.toList.map fun g => .constant g.number) ++
    m.functions.toList.flatMap fun f => .blank :: f.layout

/-- `LaidOut layout text`: the text consists of lines of the kinds in `layout`. Each of them ends in
    a newline and has no other. -/
def LaidOut (layout : List LineKind) (text : String) : Prop :=
  ∃ lines : List String, (∀ line ∈ lines, IsLine line) ∧
    text = String.join (lines.map (· ++ "\n")) ∧
    List.Forall₂ LineKind.Fits layout lines

/-! ### Modules that are put together -/

/-- `b.IsIndexed`: the blocks of `b` only list instructions that there are. -/
def Body.IsIndexed (b : Body) : Prop :=
  ∀ k ∈ b.blocks, ∀ i ∈ k.instructions, i < b.instructions.size

/-- `m.IsIndexed`: all bodies of `m` are indexed. -/
def Module.IsIndexed (m : Module) : Prop := ∀ f ∈ m.functions, ∀ b, f.body = some b → b.IsIndexed

/-- The modules that come from an empty one by adding to it. A function may come with a body. -/
inductive Module.Assembled : Module → Prop
  | new (name : String) : Assembled { name }
  | addGlobal {m : Module} (bytes : ByteArray) : Assembled m → Assembled (m.addGlobal bytes).2
  | addFunction {m : Module} {f : Function} : Assembled m → (∀ b, f.body = some b → b.IsIndexed) →
    Assembled (m.addFunction f).2
  | appendBlock {m m' : Module} {function : Nat} {label : String} {i : Nat} : Assembled m →
    m.appendBlock function label = .ok (i, m') → Assembled m'
  | emit {m m' : Module} {cursor : Cursor} {kind : Kind} {hint : String} {i : Nat} : Assembled m →
    m.emit cursor kind hint = .ok (i, m') → Assembled m'

namespace Body

variable {b : Body}

/-- `Body.push` lists the instruction that it adds. -/
theorem IsIndexed.push (h : b.IsIndexed) (block : Nat) (kind : Kind) (ty : Ty) (hint : String) :
    (b.push block kind ty hint).IsIndexed := by
  have hsize : (b.push block kind ty hint).instructions.size = b.instructions.size + 1 :=
    Array.size_push ..
  intro k hk i hi
  obtain ⟨j, hj⟩ := Array.getElem?_of_mem hk
  change (b.blocks.modify block _)[j]? = some k at hj
  rw [hsize]
  rw [Array.getElem?_modify] at hj
  split at hj
  · obtain ⟨k', hk', rfl⟩ := Option.map_eq_some_iff.mp hj
    -- The block lists the new instruction behind those it had.
    rcases Array.mem_push.mp hi with hi | rfl
    · exact Nat.lt_succ_of_lt (h k' (Array.mem_of_getElem? hk') i hi)
    · exact Nat.lt_succ_self _
  · exact Nat.lt_succ_of_lt (h k (Array.mem_of_getElem? hj) i hi)

/-- `Body.appendBlock` adds a block that lists nothing. -/
theorem IsIndexed.appendBlock (h : b.IsIndexed) (label : String) :
    (b.appendBlock label).2.IsIndexed := by
  intro k hk i hi
  rcases Array.mem_push.mp hk with hk | rfl
  · exact h k hk i hi
  · simp at hi

/-- `Body.emit` keeps a body indexed. -/
theorem IsIndexed.emit (h : b.IsIndexed) {block : Nat} {ret : Ty} {p : Nat → Option Prototype}
    {kind : Kind} {hint : String} {i : Nat} {b' : Body}
    (hemit : b.emit block ret p kind hint = .ok (i, b')) :
    b'.IsIndexed := by
  unfold Body.emit at hemit
  cases hcheck : b.check ret p kind with
  | error e =>
    rw [hcheck] at hemit
    cases hemit
  | ok ty =>
    rw [hcheck] at hemit
    dsimp only [bind, Except.bind] at hemit
    -- The block has to exist and to be open.
    split at hemit
    · cases hemit
    · split at hemit
      · cases hemit
      · obtain ⟨-, rfl⟩ := Prod.mk.inj (Except.ok.inj hemit)
        exact h.push block kind ty hint

end Body

namespace Module

variable {m m' : Module}

/-- `setBody` keeps a module indexed if the new body is. -/
theorem IsIndexed.setBody (h : m.IsIndexed) (i : Nat) {b : Body} (hb : b.IsIndexed) :
    (m.setBody i b).IsIndexed := by
  intro f hf b' hb'
  obtain ⟨j, hj⟩ := Array.getElem?_of_mem hf
  change (m.functions.modify i _)[j]? = some f at hj
  rw [Array.getElem?_modify] at hj
  split at hj
  · obtain ⟨f', -, rfl⟩ := Option.map_eq_some_iff.mp hj
    obtain rfl := Option.some.inj hb'
    exact hb
  · exact h f (Array.mem_of_getElem? hj) b' hb'

/-- `Module.appendBlock` keeps a module indexed. -/
theorem IsIndexed.appendBlock (h : m.IsIndexed) {function : Nat} {label : String} {i : Nat}
    (happend : m.appendBlock function label = .ok (i, m')) : m'.IsIndexed := by
  unfold Module.appendBlock at happend
  split at happend
  · cases happend
  · next f hf =>
    split at happend
    · cases happend
    · next b hb =>
      obtain ⟨-, rfl⟩ := Prod.mk.inj (Except.ok.inj happend)
      exact h.setBody function ((h f (Array.mem_of_getElem? hf) b hb).appendBlock label)

/-- `Module.emit` keeps a module indexed. -/
theorem IsIndexed.emit (h : m.IsIndexed) {cursor : Cursor} {kind : Kind} {hint : String} {i : Nat}
    (hemit : m.emit cursor kind hint = .ok (i, m')) : m'.IsIndexed := by
  unfold Module.emit at hemit
  split at hemit
  · cases hemit
  · next f hf =>
    cases hbody : f.body with
    | none =>
      rw [hbody] at hemit
      -- Without a body, neither a call nor anything else is added.
      cases kind with
      | call callee args =>
        cases harity : checkArity m.prototype? callee args <;>
        · simp only [harity] at hemit
          cases hemit
      | _ => cases hemit
    | some b =>
      have hb := h f (Array.mem_of_getElem? hf) b hbody
      rw [hbody] at hemit
      dsimp only at hemit
      rcases hresult : b.emit cursor.block f.prototype.ret m.prototype? kind hint with e | ⟨j, b'⟩
      · rw [hresult] at hemit
        cases hemit
      · rw [hresult] at hemit
        obtain ⟨-, rfl⟩ := Prod.mk.inj (Except.ok.inj hemit)
        exact h.setBody _ (hb.emit hresult)

/-- Every module that is `Assembled` is indexed. -/
theorem Assembled.isIndexed (h : m.Assembled) : m.IsIndexed := by
  induction h with
  | new name =>
    intro f hf
    simp at hf
  | addGlobal bytes _ ih => exact ih
  | addFunction _ hf ih =>
    intro f' hf'
    -- `addFunction` asks for an indexed body, and the other steps keep theirs indexed.
    rcases Array.mem_push.mp hf' with hf' | rfl
    · exact ih f' hf'
    · exact hf
  | appendBlock _ happend ih => exact ih.appendBlock happend
  | emit _ hemit ih => exact ih.emit hemit

end Module

/-! ### The lines of a text are of the right kinds -/

section

open LineKind

/-- If the lines of each part fit their kinds, then so do all lines. -/
theorem forall₂_flatMap {α : Type} {xs : List α} {kinds : α → List LineKind}
    {lines : α → List String} (h : ∀ x ∈ xs, List.Forall₂ Fits (kinds x) (lines x)) :
    List.Forall₂ Fits (xs.flatMap kinds) (xs.flatMap lines) := by
  induction xs with
  | nil => exact .nil
  | cons x xs ih =>
    rw [List.flatMap_cons, List.flatMap_cons]
    exact List.rel_append (h x (by simp)) (ih fun y hy => h y (by simp [hy]))

/-- The lines of a block fit `k.layout`: there is one for each instruction that it lists. -/
theorem Body.IsIndexed.fits_blockLines {b : Body} (h : b.IsIndexed) (m : Module)
    {k : Block} (hk : k ∈ b.blocks) : List.Forall₂ Fits k.layout (b.blockLines m k) := by
  -- There is an instruction for every index that is listed, so none is left out.
  have hlength : (b.contents k).length = k.instructions.toList.length := by
    refine List.filterMap_length_eq_length.mpr fun i hi => ?_
    rw [Array.getElem?_eq_getElem (h k hk i (Array.mem_toList_iff.mp hi))]
    rfl
  refine .cons rfl (List.forall₂_of_length_eq_of_get ?_ fun i hi hi' => ?_)
  · rw [List.length_map, List.length_map, hlength]
  · simp only [List.get_eq_getElem, List.getElem_map]
    exact ⟨_, String.append_assoc⟩

/-- The lines of a function fit `f.layout`. -/
theorem Module.IsIndexed.fits_functionLines {m : Module} (h : m.IsIndexed) {f : Function}
    (hf : f ∈ m.functions) : List.Forall₂ Fits f.layout (m.functionLines f) := by
  unfold Function.layout Module.functionLines
  cases hbody : f.body with
  | none => exact .cons ⟨f.prototype.ret.text, f.prototype.paramsText, rfl⟩ .nil
  | some b =>
    have hb := h f hf b hbody
    refine .cons ⟨f.prototype.ret.text, f.prototype.paramsText, rfl⟩
      (List.rel_append ?_ (.cons rfl .nil))
    exact forall₂_flatMap fun k hk => hb.fits_blockLines _ (Array.mem_toList_iff.mp hk)

/-- The line of a constant fits its number. -/
theorem Global.fits_text (g : Global) : Fits (.constant g.number) g.text := by
  refine ⟨"private unnamed_addr constant [" ++ Decimal.text g.size ++ " x i8] c\"" ++
    escapeBytes g.bytes ++
    "\\00\", align 1", ?_⟩
  have hwords : " = private unnamed_addr constant [" =
      " = " ++ "private unnamed_addr constant [" := rfl
  simp only [Global.text, hwords, String.append_assoc]

/-- The lines of a module fit `m.layout`. -/
theorem Module.IsIndexed.fits_lines {m : Module} (h : m.IsIndexed) :
    List.Forall₂ Fits m.layout m.lines := by
  refine List.rel_append (List.rel_append ?_ ?_) ?_
  · exact .cons ⟨_, String.append_assoc⟩ (.cons ⟨_, String.append_assoc⟩ .nil)
  · unfold Module.globalLines
    split
    · exact .nil
    · refine .cons rfl ?_
      rw [List.forall₂_map_left_iff, List.forall₂_map_right_iff, List.forall₂_same]
      exact fun g _ => g.fits_text
  · exact forall₂_flatMap fun f hf => .cons rfl (h.fits_functionLines (Array.mem_toList_iff.mp hf))

end

/-! ### Names that are written as they are -/

/-- A prototype is written in one line iff its name has no newline. -/
theorem Prototype.isLine_text_iff (p : Prototype) : IsLine p.text ↔ IsLine p.name := by
  have hparams := p.isLine_paramsText
  have hret := p.ret.isLine_text
  have hat : IsLine " @" := by decide
  have hopen : IsLine "(" := by decide
  have hclose : IsLine ")" := by decide
  simp [Prototype.text, isLine_append, hparams, hret, hat, hopen, hclose]

/-- The names that a function is written with have no newline: its own and those of its blocks. -/
structure Function.HasPlainNames (f : Function) : Prop where
  name : IsLine f.name
  labels : ∀ b, f.body = some b → ∀ k ∈ b.blocks, IsLine k.label

/-- The names that a module is written with have no newline: its own and those in its functions. -/
structure Module.HasPlainNames (m : Module) : Prop where
  name : IsLine m.name
  functions : ∀ f ∈ m.functions, f.HasPlainNames

namespace Module

variable {m : Module} {f : Function}

/-- A function without a body is declared in one line. -/
theorem functionLines_of_none (h : f.body = none) :
    m.functionLines f = ["declare " ++ f.prototype.text] := by
  rw [functionLines, h]

/-- A function with a body has the lines of its blocks between two others. -/
theorem functionLines_of_some {b : Body} (h : f.body = some b) :
    m.functionLines f = ("define " ++ f.prototype.text ++ " \x7b") ::
      b.blocks.toList.flatMap (b.blockLines m) ++ ["\x7d"] := by
  rw [functionLines, h]

/-- If no line of a function has a newline in it, then no name has. -/
theorem hasPlainNames_of_functionLines (h : ∀ line ∈ m.functionLines f, IsLine line) :
    f.HasPlainNames := by
  cases hbody : f.body with
  | none =>
    rw [functionLines_of_none hbody] at h
    have hline := h _ (List.mem_singleton_self _)
    exact ⟨f.prototype.isLine_text_iff.mp (isLine_append.mp hline).2, by simp [hbody]⟩
  | some b =>
    rw [functionLines_of_some hbody] at h
    have hline := h ("define " ++ f.prototype.text ++ " \x7b") (by simp)
    have htext : IsLine f.prototype.text := (isLine_append.mp (isLine_append.mp hline).1).2
    refine ⟨f.prototype.isLine_text_iff.mp htext, fun b' hb' k hk => ?_⟩
    obtain rfl := Option.some.inj (hbody.symm.trans hb')
    -- The label of a block has a line of its own.
    have hlabel : k.label ++ ":" ∈ b.blocks.toList.flatMap (b.blockLines m) :=
      List.mem_flatMap.mpr ⟨k, Array.mem_toList_iff.mpr hk, List.mem_cons_self⟩
    exact (isLine_append.mp (h _ (List.mem_append_left _ (List.mem_cons_of_mem _ hlabel)))).1

/-- If no name has a newline, then no line of a function has one in it. -/
theorem isLine_of_mem_functionLines (hm : ∀ f ∈ m.functions, IsLine f.name) (hf : f.HasPlainNames)
    {line : String} (hline : line ∈ m.functionLines f) : IsLine line := by
  have htext := f.prototype.isLine_text_iff.mpr hf.name
  -- A call is written with the name of its function.
  have hprototypes : ∀ i p, m.prototype? i = some p → IsLine p.name := by
    intro i p hp
    obtain ⟨g, hg, rfl⟩ := Option.map_eq_some_iff.mp hp
    exact hm g (Array.mem_of_getElem? hg)
  cases hbody : f.body with
  | none =>
    rw [functionLines_of_none hbody] at hline
    rw [List.mem_singleton.mp hline]
    exact .append (by decide) htext
  | some b =>
    rw [functionLines_of_some hbody, List.mem_append, List.mem_cons] at hline
    rcases hline with (rfl | hline) | hline
    · exact .append (.append (by decide) htext) (by decide)
    · obtain ⟨k, hk, hline⟩ := List.mem_flatMap.mp hline
      rcases List.mem_cons.mp hline with rfl | hline
      · exact .append (hf.labels b hbody k (Array.mem_toList_iff.mp hk)) (by decide)
      · obtain ⟨inst, -, rfl⟩ := List.mem_map.mp hline
        exact b.isLine_instructionText hprototypes inst.2
    · rw [List.mem_singleton.mp hline]
      decide

/-- No line of a module has a newline in it iff `m.HasPlainNames`. -/
theorem isLine_lines_iff : (∀ line ∈ m.lines, IsLine line) ↔ m.HasPlainNames := by
  constructor
  · intro h
    have hid := h ("; ModuleID = '" ++ m.name ++ "'") (by simp [lines, headerLines])
    refine ⟨(isLine_append.mp (isLine_append.mp hid).1).2, fun f hf => ?_⟩
    refine hasPlainNames_of_functionLines (m := m) fun line hline => h line ?_
    refine List.mem_append_right _ (List.mem_flatMap.mpr ⟨f, Array.mem_toList_iff.mpr hf, ?_⟩)
    exact List.mem_cons_of_mem _ hline
  · -- The lines of the head, of the constants and of the functions.
    intro h line hline
    rcases List.mem_append.mp hline with hline | hline
    · rcases List.mem_append.mp hline with hline | hline
      · rcases List.mem_pair.mp hline with rfl | rfl
        · exact .append (.append (by decide) h.name) (by decide)
        · exact .append (.append (by decide) (isLine_escapeBytes _)) (by decide)
      · unfold globalLines at hline
        split at hline
        · cases hline
        · rcases List.mem_cons.mp hline with rfl | hline
          · decide
          · obtain ⟨g, -, rfl⟩ := List.mem_map.mp hline
            exact isLine_globalText g
    · obtain ⟨f, hf, hline⟩ := List.mem_flatMap.mp hline
      rw [Array.mem_toList_iff] at hf
      rcases List.mem_cons.mp hline with rfl | hline
      · decide
      · exact isLine_of_mem_functionLines (fun g hg => (h.functions g hg).name)
          (h.functions f hf) hline

/-- A text is laid out as `m.layout` says iff no line has a newline in it: there are as many lines
    as the layout calls for, so a newline in one of them is one too many. -/
theorem IsIndexed.laidOut_iff_isLine (h : m.IsIndexed) :
    LaidOut m.layout m.text ↔ ∀ line ∈ m.lines, IsLine line := by
  constructor
  · rintro ⟨lines, hlines, htext, hfits⟩
    refine isLine_of_lineBreaks_le (Nat.le_of_eq ?_)
    calc lineBreaks m.lines = newlines m.text := m.newlines_text.symm
      _ = lineBreaks lines := by rw [htext, newlines_join]
      _ = lines.length := lineBreaks_eq_length hlines
      _ = m.lines.length := hfits.length_eq.symm.trans h.fits_lines.length_eq
  · exact fun hlines => ⟨m.lines, hlines, rfl, h.fits_lines⟩

end Module

/-! ### Programs -/

/-- A module with any constants and functions is `Assembled`, if the bodies are indexed. -/
theorem Module.assembled_of_functions (name : String) (constants : List ByteArray)
    (functions : List Function) (h : ∀ f ∈ functions, ∀ b, f.body = some b → b.IsIndexed) :
    Module.Assembled
      { name, globals := constants.toArray.mapIdx Global.mk, functions := functions.toArray } := by
  induction functions using List.reverseRecOn with
  | nil =>
    induction constants using List.reverseRecOn with
    | nil => exact .new name
    | append_singleton constants bytes ih =>
      have hadd := ih.addGlobal bytes
      simpa [Module.addGlobal] using hadd
  -- All constants are in place when the first function comes.
  | append_singleton functions f ih =>
    have hadd := (ih fun g hg => h g (by simp [hg])).addFunction (h f (by simp))
    simpa [Module.addFunction, nameIndex_append, Function.name] using hadd

namespace Draft

/-- The body of a draft is indexed. -/
theorem isIndexed_body (d : Draft) : d.body.IsIndexed := by
  intro k hk i hi
  rw [Array.mem_singleton.mp hk] at hi
  simpa [block] using hi

/-- The program of a draft is `Assembled`. -/
theorem assembled_module (d : Draft) (name : String) : (d.module name).Assembled := by
  have hindexed : ∀ f ∈ (d.module name).functions.toList, ∀ b, f.body = some b → b.IsIndexed := by
    intro f hf b hb
    rcases mem_functions_module (Array.mem_toList_iff.mp hf) with rfl | rfl
    · obtain rfl := Option.some.inj hb
      exact d.isIndexed_body
    · cases hb
  have h := Module.assembled_of_functions name d.constants.toList _ hindexed
  rwa [Array.toArray_toList, Array.toArray_toList] at h

/-- The functions and blocks of a program have plain names, so only its own name matters. -/
theorem hasPlainNames_module {d : Draft} {name : String} :
    (d.module name).HasPlainNames ↔ IsLine name := by
  refine ⟨fun h => h.name, fun h => ⟨h, fun f hf => ?_⟩⟩
  have hmain : IsLine mainPrototype.name := by decide
  have hentry : IsLine "entry" := by decide
  rcases mem_functions_module hf with rfl | rfl
  · refine ⟨hmain, fun b hb k hk => ?_⟩
    obtain rfl := Option.some.inj hb
    rw [Array.mem_singleton.mp hk]
    exact hentry
  · exact ⟨by decide, fun b hb => by cases hb⟩

end Draft

/-! ### Texts -/

/-- The text of an `Assembled` module has the lines that `m.layout` calls for and no others, iff the
    names of the module, of its functions and of its blocks have no newline. No other name and no
    constant can add a line. -/
theorem Module.Assembled.laidOut_iff {m : Module} (h : m.Assembled) :
    LaidOut m.layout m.text ↔ m.HasPlainNames := by
  rw [h.isIndexed.laidOut_iff_isLine, Module.isLine_lines_iff]

/-- A newline in the name of a result or in a constant adds no line. -/
theorem laidOut_sample :
    let m := ((Draft.constant {} "a\nb").declare "x\ny").module "top"
    m.Assembled ∧ LaidOut m.layout m.text ∧
      m.text =
        "; ModuleID = 'top'\nsource_filename = \"top\"\n\n@0 = private unnamed_addr constant " ++
        "[4 x i8] c\"a\\0Ab\\00\", align 1\n\ndefine i32 @main() \x7b\nentry:\n" ++
        "  %\"x\\0Ay\" = alloca double, align 8\n\x7d\n" := by
  intro m
  have hassembled : m.Assembled := Draft.assembled_module _ _
  exact ⟨hassembled, hassembled.laidOut_iff.mpr (Draft.hasPlainNames_module.mpr (by decide)),
    by decide +kernel⟩

/-- A module is written under its name as it is, so a newline in the name adds a line. -/
theorem not_laidOut_of_newline_in_name : ∃ m : Module, compile "" { moduleName := "a\nb" } = .ok m ∧
    m.Assembled ∧ ¬ LaidOut m.layout m.text := by
  have hparses : ParsesTo "" [] := ⟨[], by decide +kernel, .nil⟩
  refine ⟨_, hparses.compile_eq_ok (by simp), Draft.assembled_module _ _, ?_⟩
  rw [(Draft.assembled_module _ _).isIndexed.laidOut_iff_isLine, Module.isLine_lines_iff,
    Draft.hasPlainNames_module]
  decide

end Straightline
