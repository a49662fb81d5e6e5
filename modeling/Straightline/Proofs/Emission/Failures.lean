import Straightline.Proofs.Emission.Effects

/-!
# Commands that fail

A read or an operator that is refused can leave something behind: the slot of a variable, or an
operand that was widened. The instructions of later commands get other numbers and names then, but
what they do is the same.

* `Session.Mirrors.give_refused`: such a command changes nothing about what was evaluated.
* `Session.Mirrors.accepted`: two sessions that mirror one evaluation go on to do so if one of them
  skips what fails.
* `observed_accepted`: a program and the one without the commands that fail show the same. An
  operator that there is no instruction for leaves nothing behind at all.
-/

namespace Straightline

open Draft

/-! ### Operators without an instruction -/

namespace Emit

variable {α β : Type}

/-- `FailsBuilding x`: `x` fails only where an instruction is refused. -/
def FailsBuilding (x : Emit α) : Prop :=
  ∀ (c c' : Compilation) (e : EmitError), x c = (.error e, c') → ∃ cause, e = .build cause

/-- Steps in a row fail only where one of them does. -/
theorem FailsBuilding.bind {x : Emit α} {next : α → Emit β} (hx : FailsBuilding x)
    (hnext : ∀ a, FailsBuilding (next a)) : FailsBuilding (x >>= next) := by
  intro c c' e h
  rcases hxc : x c with ⟨e' | a, c₁⟩
  · rw [bind_of_error hxc] at h
    obtain ⟨he, rfl⟩ := Prod.mk.inj h
    obtain rfl := Except.error.inj he
    exact hx c c₁ e' hxc
  · rw [bind_of_ok hxc] at h
    exact hnext a c₁ c' e h

/-- `instruction` fails with what `Body.emit` says. -/
theorem failsBuilding_instruction (kind : Kind) (hint : String) :
    FailsBuilding (instruction kind hint) := by
  intro c c' e h
  unfold instruction at h
  split at h
  · cases h
  · next cause _ => exact ⟨cause, by simpa using (congrArg (·.1) h).symm⟩

/-- `asDouble` fails only where its instruction is refused. -/
theorem failsBuilding_asDouble (x : Operand) : FailsBuilding (asDouble x) := by
  intro c c' e h
  rw [asDouble, get_bind] at h
  split at h
  · exact failsBuilding_instruction _ _ c c' e h
  · cases h

/-- `apply` refuses an operator as unsupported before anything is added. -/
theorem apply_eq_unsupported {x y : Operand} {op : BinaryOperator} {symbol : String}
    {c c' : Compilation} (h : apply x y op c = (.error (.unsupportedOperator symbol), c')) :
    c' = c := by
  unfold apply at h
  cases hop : op.instruction? with
  | none =>
    rw [hop] at h
    exact (congrArg (·.2) h).symm
  | some instruction =>
    rw [hop] at h
    -- Behind the look at the operator only the builder can refuse.
    have hbuild := (failsBuilding_asDouble x).bind fun x' =>
      (failsBuilding_asDouble y).bind fun y' =>
        failsBuilding_instruction (instruction.1 x' y') instruction.2
    obtain ⟨cause, hcause⟩ := hbuild c c' _ h
    cases hcause

/-- `binaryOp` that fails with `unsupportedOperator` leaves the compilation. -/
theorem binaryOp_eq_unsupported {x y : Operand} {text symbol : String} {c c' : Compilation}
    (h : binaryOp x y text c = (.error (.unsupportedOperator symbol), c')) : c' = c := by
  unfold binaryOp at h
  cases hop : BinaryOperator.ofSymbol? text with
  | none =>
    rw [hop] at h
    exact (congrArg (·.2) h).symm
  | some op =>
    rw [hop] at h
    exact apply_eq_unsupported h

end Emit

/-! ### Skipping what fails -/

/-- Other operands do not change whether a command can fail. -/
theorem Command.isFallible_traverse {α β : Type} {f : α → Option β} {command : Command α}
    {made : Command β} (h : command.traverse f = some made) :
    made.isFallible = command.isFallible := by
  cases command with
  | call call =>
    obtain ⟨made, hmade, heq⟩ := Option.bind_eq_some_iff.mp h
    obtain rfl := Option.some.inj heq
    -- By the number of arguments, which do not matter.
    cases call with
    | constant | read | printString =>
      obtain rfl := Option.some.inj hmade
      rfl
    | write name a | printNumber a =>
      obtain ⟨x, -, heq⟩ := Option.bind_eq_some_iff.mp hmade
      obtain rfl := Option.some.inj heq
      rfl
    | binaryOp a a' symbol | apply a a' op =>
      obtain ⟨x, -, hmade⟩ := Option.bind_eq_some_iff.mp hmade
      obtain ⟨x', -, heq⟩ := Option.bind_eq_some_iff.mp hmade
      obtain rfl := Option.some.inj heq
      rfl
  | resolve name =>
    obtain rfl := Option.some.inj h
    rfl
  | printFormatted format a =>
    obtain ⟨x, -, heq⟩ := Option.bind_eq_some_iff.mp h
    obtain rfl := Option.some.inj heq
    rfl

namespace Session

variable {options : Options} {s t s' : Session} {e : Ledger} {d d₂ : Draft}

/-- A read or an operator that fails changes nothing about what was evaluated. -/
theorem Mirrors.give_refused {command : Command Argument} (h : Mirrors options s e d)
    (hs : s.give command = some s') (hfallible : command.isFallible = true)
    (hrefused : s.refuses command = true) :
    ∃ d', Mirrors options s' e d' := by
  obtain ⟨made, hmade, rfl⟩ := exists_of_give hs
  obtain ⟨e', d', he', h'⟩ := h.give hs
  obtain ⟨meant, hmeant, rfl⟩ := Ledger.exists_of_give he'
  -- The session hands out nothing, so neither does the evaluation.
  have hnil : (meant.eval options.reads e.toEffects).1 = [] := by
    have hlength := h'.knows.types.length_eq
    have hlength₀ := h.knows.types.length_eq
    rw [handedOut_of_refuses hrefused hmade] at hlength
    simp only [List.append_nil, List.length_append, hlength₀] at hlength
    exact List.length_eq_zero_iff.mp (by omega)
  have heval := Command.eval_eq_nil ((Command.isFallible_traverse hmeant).trans hfallible) hnil
  refine ⟨d', ?_⟩
  rw [heval, List.append_nil] at h'
  exact h'

/-- If two sessions mirror one evaluation, they do so in the end, when one of them skips the
    commands that fail in the other. -/
theorem Mirrors.accepted {commands : List (Command Argument)} (h : Mirrors options s e d)
    (ht : Mirrors options t e d₂) (hs : s.giveAll commands = some s') :
    ∃ t' e' d' d₂', t.giveAll (s.accepted commands) = some t' ∧ Mirrors options s' e' d' ∧
      Mirrors options t' e' d₂' := by
  -- By induction on the commands: one that fails is carried out on the left only, and any other on
  -- both sides.
  induction commands generalizing s t e d d₂ with
  | nil =>
    obtain rfl := Option.some.inj hs
    exact ⟨t, e, d, d₂, rfl, h, ht⟩
  | cons command commands ih =>
    rw [giveAll_cons] at hs
    obtain ⟨s₁, hs₁, hs'⟩ := Option.bind_eq_some_iff.mp hs
    rw [accepted, hs₁, Option.elim_some]
    split
    · next hskip =>
      obtain ⟨hfallible, hrefused⟩ := Bool.and_eq_true_iff.mp hskip
      obtain ⟨d₁, h₁⟩ := h.give_refused hs₁ hfallible hrefused
      exact ih h₁ ht hs'
    · -- Both carry out the command.
      obtain ⟨e₁, d₁, he₁, h₁⟩ := h.give hs₁
      obtain ⟨t₁, ht₁⟩ := ht.exists_give he₁
      obtain ⟨e₂, d₂', he₂, h₂⟩ := ht.give ht₁
      obtain rfl := Option.some.inj (he₁.symm.trans he₂)
      obtain ⟨t', e', d', d'', ht', hfinal⟩ := ih h₁ h₂ hs'
      refine ⟨t', e', d', d'', ?_, hfinal⟩
      rw [giveAll_cons, ht₁]
      exact ht'

end Session

/-- Commands that fail cannot be noticed. Without the reads and operators that fail, the same
    commands can be given, and as many results are handed out. Both programs can be finished, and
    their runs show the same: both end with the same exit code and output, or both fail with the
    same error, up to the name of the slot in it. Besides, an operator that is refused as
    unsupported leaves the compilation as it was. -/
theorem observed_accepted {options : Options} {commands : List (Command Argument)} {s : Session}
    (h : Session.giveAll { compilation := { options } } commands = some s) :
    ∃ t c c', Session.giveAll { compilation := { options } }
        (Session.accepted { compilation := { options } } commands) = some t ∧
      t.handles.length = s.handles.length ∧
      Emit.finish s.compilation = (.ok (), c) ∧ Emit.finish t.compilation = (.ok (), c') ∧
      observed (c.module.run "main") = observed (c'.module.run "main") ∧
      ∀ (before after : Compilation) (x y : Operand) (symbol : String),
        (∀ op, Emit.apply x y op before = (.error (.unsupportedOperator symbol), after) →
          after = before) ∧
        ∀ text, Emit.binaryOp x y text before = (.error (.unsupportedOperator symbol), after) →
          after = before := by
  have hempty := Session.mirrors_empty options
  -- Both sessions mirror one ledger, and what is observed of a run is in the ledger.
  obtain ⟨t, e, d, d₂, ht, hmirrors, hmirrors₂⟩ := hempty.accepted hempty h
  obtain ⟨c, hc, hrun⟩ := hmirrors.observed_run
  obtain ⟨c', hc', hrun'⟩ := hmirrors₂.observed_run
  have hlength : t.handles.length = s.handles.length :=
    hmirrors₂.knows.types.length_eq.trans hmirrors.knows.types.length_eq.symm
  exact ⟨t, c, c', ht, hlength, hc, hc', hrun.trans hrun'.symm, fun _ _ _ _ _ =>
    ⟨fun _ => Emit.apply_eq_unsupported, fun _ => Emit.binaryOp_eq_unsupported⟩⟩

/-- A read is refused, which leaves a slot behind, and so is an operator on a print's result, which
    leaves a widened operand behind that takes the name `booltmp`. -/
theorem observed_accepted_sample :
    let start : Session := { compilation := { options := ⟨"top", .error⟩ } }
    let one : Double := ⟨0x3FF0000000000000⟩
    let rest : List (Command Argument) :=
      [.call (.write "booltmp" (.result 1)), .call (.read "booltmp"),
      .call (.printNumber (.result 2)), .printFormatted "%f%%\n" (.result 2)]
    let kept : List (Command Argument) := [.call (.printString "a"),
      .call (.binaryOp (.constant .zero) (.constant one) "<")]
    let refused : List (Command Argument) := [.call (.binaryOp (.result 1) (.result 0) "+"),
      .call (.apply (.result 1) (.result 1) .equality)]
    ∃ s t c c', start.giveAll (.call (.read "x") :: kept ++ refused ++ rest) = some s ∧
      start.giveAll (kept ++ rest) = some t ∧
      Emit.finish s.compilation = (.ok (), c) ∧ Emit.finish t.compilation = (.ok (), c') ∧
      observed (c.module.run "main") = .ok (0, "a\n1.000000\n1.000000%\n") ∧
      observed (c.module.run "main") = observed (c'.module.run "main") := by
  intro start one rest kept refused
  have hgive : (start.giveAll (.call (.read "x") :: kept ++ refused ++ rest)).isSome = true := by
    decide +kernel
  obtain ⟨s, hs⟩ := Option.isSome_iff_exists.mp hgive
  obtain ⟨t, c, c', ht, -, hc, hc', hrun, -⟩ := observed_accepted hs
  -- The read is refused because nothing was stored, and the operators because of their operands.
  have hkept : start.accepted (.call (.read "x") :: kept ++ refused ++ rest) = kept ++ rest := by
    decide +kernel
  rw [hkept] at ht
  have houtput : (start.giveAll (.call (.read "x") :: kept ++ refused ++ rest)).map
      (fun s => observed ((Emit.finish s.compilation).2.module.run "main")) =
        some (.ok (0, "a\n1.000000\n1.000000%\n")) := by decide +kernel
  rw [hs, Option.map_some, hc] at houtput
  exact ⟨s, t, c, c', hs, ht, hc, hc', Option.some.inj houtput, hrun⟩

end Straightline
