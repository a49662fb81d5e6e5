import Mathlib.Data.List.Induction
import Straightline.Proofs.Emission.Draft
import Straightline.Proofs.Ir.Lines

/-!
# The lines of a program

* `Draft.lines_main` are the lines of `main`, one for each instruction between a few others, and
  `Draft.isLine_lines_main` says that none of them has a newline in it.
* `Draft.lines_functions` are the lines of all functions.
-/

namespace Straightline

/-- What stands at all places of a list, with the places, is the list with its indices. -/
theorem filterMap_range_getElem? {α : Type} (xs : List α) :
    ((List.range xs.length).filterMap fun i => xs[i]?.map (i, ·)) = xs.zipIdx.map Prod.swap := by
  induction xs using List.reverseRecOn with
  | nil => rfl
  | append_singleton xs x ih =>
    have hbefore : ((List.range xs.length).filterMap fun i => (xs ++ [x])[i]?.map (i, ·)) =
        (List.range xs.length).filterMap fun i => xs[i]?.map (i, ·) := by
      refine List.filterMap_congr fun i hi => ?_
      rw [List.getElem?_append_left (List.mem_range.mp hi)]
    rw [List.length_append, List.length_singleton, List.range_succ, List.filterMap_append, hbefore,
      ih, List.zipIdx_append]
    simp

namespace Draft

/-- The block of a draft holds all instructions in their order. -/
theorem map_contents (d : Draft) : (d.body.contents d.block).map (·.2) = d.instructions.toList := by
  have h : d.body.contents d.block = d.instructions.toList.zipIdx.map Prod.swap := by
    rw [← filterMap_range_getElem?]
    simp [Body.contents, block, body]
  rw [h, List.map_map]
  exact List.zipIdx_map_fst 0 d.instructions.toList

/-- The lines of `main`: one for each instruction, and those around them. -/
theorem lines_main (d : Draft) (m : Module) :
    m.functionLines ⟨mainPrototype, some d.body⟩ =
      ["define " ++ mainPrototype.text ++ " \x7b", "entry:"] ++
        d.instructions.toList.map (d.body.instructionText m) ++ ["\x7d"] := by
  rw [← d.map_contents, List.map_map]
  simp [Module.functionLines, Body.blockLines, body, block, Function.comp_def]

/-- A program has the functions `main` and `printf` only. -/
theorem mem_functions_module {d : Draft} {name : String} {f : Function}
    (hf : f ∈ (d.module name).functions) :
    f = ⟨mainPrototype, some d.body⟩ ∨ f = ⟨printfPrototype, none⟩ := by
  rcases Array.mem_append.mp hf with hf | hf
  · exact .inl (Array.mem_singleton.mp hf)
  · split at hf
    · exact .inr (Array.mem_singleton.mp hf)
    · simp at hf

/-- A prototype of a program is that of `main` or of `printf`. -/
theorem eq_of_prototype? {d : Draft} {name : String} {i : Nat} {p : Prototype}
    (h : (d.module name).prototype? i = some p) : p = mainPrototype ∨ p = printfPrototype := by
  obtain ⟨f, hf, rfl⟩ := Option.map_eq_some_iff.mp h
  rcases mem_functions_module (Array.mem_of_getElem? hf) with rfl | rfl
  · exact .inl rfl
  · exact .inr rfl

/-- An instruction of a program takes a single line. -/
theorem isLine_instructionText (d : Draft) (name : String) (inst : Instruction) :
    IsLine (d.body.instructionText (d.module name) inst) := by
  refine d.body.isLine_instructionText (fun i p hp => ?_) inst
  rcases eq_of_prototype? hp with rfl | rfl <;> decide

/-- No line of `main` has a newline in it. -/
theorem isLine_lines_main (d : Draft) (name : String) :
    ∀ line ∈ (d.module name).functionLines ⟨mainPrototype, some d.body⟩, IsLine line := by
  intro line hline
  rw [lines_main, List.mem_append, List.mem_append] at hline
  rcases hline with (hline | hline) | hline
  · revert line
    decide
  · obtain ⟨inst, -, rfl⟩ := List.mem_map.mp hline
    exact d.isLine_instructionText name inst
  · rw [List.mem_singleton.mp hline]
    decide

/-- The lines of the declaration of `printf`, if it is declared. -/
def declarationLines (d : Draft) : List String :=
  if d.declaresPrintf then ["", "declare " ++ printfPrototype.text] else []

/-- The lines of `main` and of the declaration, each behind a blank one. -/
theorem lines_functions (d : Draft) (name : String) :
    ((d.module name).functions.toList.flatMap fun f => "" :: (d.module name).functionLines f) =
      "" :: (d.module name).functionLines ⟨mainPrototype, some d.body⟩ ++ d.declarationLines := by
  unfold declarationLines Draft.module
  cases d.declaresPrintf
  · simp
  · simp [Module.functionLines]

end Draft

end Straightline
