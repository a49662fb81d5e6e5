import Straightline.Proofs.Emission.Sessions

/-!
# Commands

All that a compilation can be told: the calls, the reservation of a slot, and a print with a format
of one's own. What a print hands out can be used like any other result.

* `Session.give` carries out a command, and `Session.accepted` are the commands without those that
  fail.
* `Command.draft` is what a command adds to a draft and what it hands out, whether it succeeds or
  fails. `Command.emits_draft` says that a compilation does the same.
* `Session.reachable_giveAll` says that what commands lead to is reachable.
-/

namespace Straightline

open Draft

/-- A command with operands from `α`. -/
inductive Command (α : Type) where
  | call (call : Call α)
  /-- Reserve a slot for a name, unless it has one. -/
  | resolve (name : String)
  | printFormatted (format : String) (value : α)
  deriving DecidableEq

namespace Command

variable {α β γ : Type}

/-- The command with other operands, if all of them can be found. -/
def traverse (f : α → Option β) : Command α → Option (Command β)
  | call made => return call (← made.traverse f)
  | resolve name => some (resolve name)
  | printFormatted format value => return printFormatted format (← f value)

/-- What a command does, and what it hands out. -/
def emit : Command Operand → Emit (List Operand)
  | call made => made.emit
  | resolve name => do
    let _ ← Emit.resolve name
    return []
  | printFormatted format value => return [← Emit.printFormatted format value]

/-- Whether a command reads or applies an operator. No other command can fail. -/
def isFallible : Command α → Bool
  | call (.read _) => true
  | call (.binaryOp ..) => true
  | call (.apply ..) => true
  | _ => false

/-- Two commands of the same kind with related operands. -/
inductive Matches (R : α → β → Prop) : Command α → Command β → Prop
  | call {made : Call α} {meant : Call β} :
    made.Matches R meant → Matches R (.call made) (.call meant)
  | resolve (name : String) : Matches R (.resolve name) (.resolve name)
  | printFormatted (format : String) {x : α} {y : β} : R x y →
    Matches R (.printFormatted format x) (.printFormatted format y)

/-- If operands are found with `g` whenever they are with `f`, then so are commands, and the two
    commands match. -/
theorem exists_traverse {f : α → Option β} {g : α → Option γ} {R : β → γ → Prop}
    (hfind : ∀ {a : α} {x : β}, f a = some x → ∃ y, g a = some y ∧ R x y) {command : Command α}
    {made : Command β} (h : command.traverse f = some made) :
    ∃ meant, command.traverse g = some meant ∧ made.Matches R meant := by
  cases command with
  | call call =>
    obtain ⟨made, hmade, heq⟩ := Option.bind_eq_some_iff.mp h
    obtain rfl := Option.some.inj heq
    obtain ⟨meant, hmeant, hmatch⟩ := Call.exists_traverse hfind hmade
    exact ⟨.call meant, by simp [traverse, hmeant], .call hmatch⟩
  | resolve name =>
    obtain rfl := Option.some.inj h
    exact ⟨_, rfl, .resolve name⟩
  | printFormatted format a =>
    obtain ⟨x, hx, heq⟩ := Option.bind_eq_some_iff.mp h
    obtain rfl := Option.some.inj heq
    obtain ⟨y, hy, hxy⟩ := hfind hx
    exact ⟨.printFormatted format y, by simp [traverse, hy], .printFormatted format hxy⟩

end Command

/-! ### Sessions of commands -/

namespace Session

/-- Carry out a command, unless it is given a result that was not handed out. -/
def give (s : Session) (command : Command Argument) : Option Session := do
  let made ← command.traverse (·.operand? s.handles)
  let (result, compilation) := made.emit s.compilation
  return { compilation, handles := s.handles ++ handedOut result }

/-- Carry out commands in a row. -/
def giveAll (s : Session) (commands : List (Command Argument)) : Option Session :=
  commands.foldlM give s

/-- Whether a command fails now. -/
def refuses (s : Session) (command : Command Argument) : Bool :=
  (command.traverse (·.operand? s.handles)).any fun made => !(made.emit s.compilation).1.isOk

/-- The commands without the reads and operators that fail when all are carried out in a row. -/
def accepted (s : Session) : List (Command Argument) → List (Command Argument)
  | [] => []
  | command :: commands =>
    let rest := (s.give command).elim commands fun s => s.accepted commands
    if command.isFallible && s.refuses command then rest else command :: rest

/-- A command that is carried out has its operands, and leaves what `Command.emit` leaves. -/
theorem exists_of_give {s s' : Session} {command : Command Argument}
    (h : s.give command = some s') :
    ∃ made : Command Operand, command.traverse (·.operand? s.handles) = some made ∧
      s' = ⟨(made.emit s.compilation).2, s.handles ++ handedOut (made.emit s.compilation).1⟩ := by
  obtain ⟨made, hmade, hs'⟩ := Option.bind_eq_some_iff.mp h
  exact ⟨made, hmade, (Option.some.inj hs').symm⟩

/-- A command whose operands are found is carried out, whether it fails or not. -/
theorem give_of_traverse {s : Session} {command : Command Argument} {made : Command Operand}
    (h : command.traverse (·.operand? s.handles) = some made) :
    s.give command =
      some ⟨(made.emit s.compilation).2, s.handles ++ handedOut (made.emit s.compilation).1⟩ := by
  rw [give, h]
  rfl

/-- `giveAll` carries out the first command and then the others. -/
theorem giveAll_cons (s : Session) (command : Command Argument)
    (commands : List (Command Argument)) :
    s.giveAll (command :: commands) = (s.give command).bind (·.giveAll commands) :=
  List.foldlM_cons ..

/-- A command that `refuses` tells of hands out nothing. -/
theorem handedOut_of_refuses {s : Session} {command : Command Argument} {made : Command Operand}
    (h : s.refuses command = true) (hmade : command.traverse (·.operand? s.handles) = some made) :
    handedOut (made.emit s.compilation).1 = [] := by
  rw [refuses, hmade, Option.any_some] at h
  cases hresult : (made.emit s.compilation).1 with
  | error e => rfl
  | ok xs =>
    rw [hresult] at h
    cases h

end Session

/-! ### What commands add -/

/-- Apply an operator, if there is one and both operands come out as doubles. What was widened
    stays. -/
def Draft.operate (d : Draft) (op : Option Operator) (x y : Operand) : Draft × List Operand :=
  match op with
  | none => (d, [])
  | some op =>
    let widened := ((d.asDouble x).2.asDouble y).2
    if widened.body.typeOf (d.asDouble x).1 = .double ∧
        widened.body.typeOf ((d.asDouble x).2.asDouble y).1 = .double then
      ((d.apply op x y).2, [(d.apply op x y).1])
    else (widened, [])

/-- What a command adds to a draft, and what it hands out. -/
def Command.draft (policy : ReadPolicy) (d : Draft) : Command Operand → Draft × List Operand
  | call (.constant value) => (d, [.double value])
  | call (.read name) =>
    if policy = .error ∧ d.isWritten name = false then (d.declare name, [])
    else ((d.read policy name).2, [(d.read policy name).1])
  | call (.write name x) => (d.write name x, [])
  | call (.binaryOp x y symbol) => d.operate (Operator.ofText? symbol) x y
  | call (.apply x y op) => d.operate op.operator? x y
  | call (.printNumber x) => (d.printNumber x, [(d.asDouble x).2.next])
  | call (.printString text) => (d.printString text, [d.next])
  | resolve name => (d.declare name, [])
  | printFormatted format x => (d.printf format x, [d.next])

section

variable {d : Draft} {op : Operator} {x y : Operand}

/-- `operate` applies an operator if both operands come out as doubles. -/
theorem Draft.operate_of_typeOf
    (h : ((d.asDouble x).2.asDouble y).2.body.typeOf (d.asDouble x).1 = .double ∧
      ((d.asDouble x).2.asDouble y).2.body.typeOf ((d.asDouble x).2.asDouble y).1 = .double) :
    d.operate (some op) x y = ((d.apply op x y).2, [(d.apply op x y).1]) := if_pos h

/-- `operate` only widens if one of them does not. -/
theorem Draft.operate_of_not_typeOf
    (h : ¬ (((d.asDouble x).2.asDouble y).2.body.typeOf (d.asDouble x).1 = .double ∧
      ((d.asDouble x).2.asDouble y).2.body.typeOf ((d.asDouble x).2.asDouble y).1 = .double)) :
    d.operate (some op) x y = (((d.asDouble x).2.asDouble y).2, []) := if_neg h

/-- A read that the policy allows adds what `Draft.read` adds. -/
theorem Command.draft_read {policy : ReadPolicy} {name : String}
    (h : policy = .error → d.isWritten name = true) :
    (call (.read name)).draft policy d = ((d.read policy name).2, [(d.read policy name).1]) :=
  if_neg fun hrefused => absurd (h hrefused.1) (by simp [hrefused.2])

/-- A read that `error` forbids declares the variable. -/
theorem Command.draft_read_of_refused {policy : ReadPolicy} {name : String}
    (hpolicy : policy = .error) (hw : d.isWritten name = false) :
    (call (.read name)).draft policy d = (d.declare name, []) :=
  if_pos ⟨hpolicy, hw⟩

/-- A read is forbidden under `error` if nothing was stored to the variable, and else made. -/
theorem Command.draft_read_cases (policy : ReadPolicy) (d : Draft) (name : String) :
    ((policy = .error → d.isWritten name = true) ∧
        (call (.read name)).draft policy d = ((d.read policy name).2, [(d.read policy name).1])) ∨
      policy = .error ∧ d.isWritten name = false ∧
        (call (.read name)).draft policy d = (d.declare name, []) := by
  by_cases hread : policy = .error → d.isWritten name = true
  · exact .inl ⟨hread, draft_read hread⟩
  · rw [Classical.not_imp, Bool.not_eq_true] at hread
    exact .inr ⟨hread.1, hread.2, draft_read_of_refused hread.1 hread.2⟩

end

/-- `operate` takes nothing back. -/
theorem Draft.grows_operate (d : Draft) (op : Option Operator) (x y : Operand) :
    Grows d (d.operate op x y).1 := by
  cases op with
  | none => exact .refl
  | some op =>
    unfold operate
    dsimp only
    split
    · exact grows_apply d op x y
    · exact (grows_asDouble d x).trans (grows_asDouble _ y)

/-- `Command.draft` takes nothing back. -/
theorem Command.grows_draft (policy : ReadPolicy) (d : Draft) (command : Command Operand) :
    Grows d (command.draft policy d).1 := by
  cases command with
  | call call =>
    cases call with
    | constant value => exact .refl
    | read name =>
      -- A read that is refused has declared its variable.
      rcases draft_read_cases policy d name with ⟨-, heq⟩ | ⟨-, -, heq⟩
      · rw [heq]
        exact grows_read d policy name
      · rw [heq]
        exact .declare name .refl
    | write name x => exact grows_write d name x
    | binaryOp x y symbol => exact grows_operate d _ x y
    | apply x y op => exact grows_operate d _ x y
    | printNumber x => exact grows_printNumber d x
    | printString text => exact grows_printString d text
  | resolve name => exact .declare name .refl
  | printFormatted format x => exact grows_printf d format x

namespace Emit

variable {options : Options} {d d' : Draft} {x : Emit (List Operand)} {new : List Operand}

/-- `Emits options d x (d', new)`: on everything that follows `d`, `x` hands out `new` and leads to
    what follows `d'`, whether it succeeds or fails. -/
def Emits (options : Options) (d : Draft) (x : Emit (List Operand))
    (result : Draft × List Operand) : Prop :=
  ∀ c : Compilation, c.Follows options d →
    (x c).2.Follows options result.1 ∧ handedOut (x c).1 = result.2

/-- A step that leads to `d'` with the result `new` hands it out. -/
theorem Leads.emits (h : Leads options d x (· = new) d') : Emits options d x (d', new) := by
  intro c hc
  obtain ⟨xs, c', hx, rfl, hc'⟩ := h c hc
  rw [hx]
  exact ⟨hc', rfl⟩

/-- A step that stops at `d'` hands out nothing. -/
theorem Stops.emits {e : EmitError} (h : Stops options d x e d') : Emits options d x (d', []) := by
  intro c hc
  obtain ⟨c', hx, hc'⟩ := h c hc
  rw [hx]
  exact ⟨hc', rfl⟩

/-- A step that leads to `d'` with the operand `y` hands out `y`. -/
theorem Leads.emits_singleton {run : Emit Operand} {y : Operand}
    (h : Leads options d run (· = y) d') :
    Emits options d (do return [← run]) (d', [y]) :=
  (h.bind fun z hz => by
    subst hz
    exact leads_pure rfl).emits

/-- A step that is `apply` for an operator, and that stops if there is none, does what `operate`
    does. -/
theorem emits_operate {run : Emit Operand} {x y : Operand} {op : Option Operator}
    (hrun : ∀ o, op = some o → run = apply x y o.named)
    (hstop : op = none → ∃ e, Stops options d run e d) :
    Emits options d (do return [← run]) (d.operate op x y) := by
  cases op with
  | none =>
    obtain ⟨e, he⟩ := hstop rfl
    exact he.bind.emits
  | some op =>
    rw [hrun op rfl]
    -- `operate` looks at the types behind both conversions, as the builder does.
    by_cases htypes : ((d.asDouble x).2.asDouble y).2.body.typeOf (d.asDouble x).1 = .double ∧
        ((d.asDouble x).2.asDouble y).2.body.typeOf ((d.asDouble x).2.asDouble y).1 = .double
    · rw [operate_of_typeOf htypes]
      exact (leads_apply_of_typeOf op htypes.1 htypes.2).emits_singleton
    · obtain ⟨e, he⟩ := stops_apply op htypes
      rw [operate_of_not_typeOf htypes]
      exact he.bind.emits

/-- `read` does what `Command.draft` says of it. -/
theorem emits_read (name : String) :
    Emits options d (Command.call (.read name)).emit
      ((Command.call (.read name)).draft options.reads d) := by
  rcases Command.draft_read_cases options.reads d name with ⟨hread, heq⟩ | ⟨hpolicy, hw, heq⟩
  · rw [heq]
    exact (leads_read hread).emits_singleton
  · rw [heq]
    exact (stops_read hpolicy hw).bind.emits

end Emit

open Emit

/-- Every command does what `Command.draft` says of it. -/
theorem Command.emits_draft {options : Options} {d : Draft} (command : Command Operand) :
    Emits options d command.emit (command.draft options.reads d) := by
  cases command with
  | call call =>
    cases call with
    | constant value => exact Leads.emits (leads_pure (a := [Operand.double value]) rfl)
    | read name => exact emits_read name
    | write name x =>
      exact Leads.emits ((leads_write name x).bind fun _ _ => leads_pure (a := []) rfl)
    -- By text or by name, an operator that can be computed is the same, and any other stops.
    | binaryOp x y symbol =>
      exact emits_operate (fun _ h => binaryOp_of_ofText? x y h) (exists_stops_binaryOp x y)
    | apply x y op =>
      refine emits_operate (fun o h => ?_) (exists_stops_apply x y)
      rw [BinaryOperator.named_of_operator? h]
    | printNumber x => exact (leads_printNumber x).emits_singleton
    | printString text => exact (leads_printString text).emits_singleton
  | resolve name =>
    exact Leads.emits ((leads_resolve name).bind fun _ _ => leads_pure (a := []) rfl)
  | printFormatted format x => exact (leads_printFormatted format x).emits_singleton

/-! ### Reachable compilations -/

/-- An argument is a constant or was handed out. -/
theorem Argument.isConstant_or_mem {handles : List Operand} {a : Argument} {x : Operand}
    (h : a.operand? handles = some x) : x.IsConstant ∨ x ∈ handles := by
  cases a with
  | constant value | integer value =>
    obtain rfl := Option.some.inj h
    exact .inl trivial
  | result index => exact .inr (List.mem_of_getElem? h)

namespace Session

variable {options : Options} {s s' : Session}

/-- `give` leads from what is reachable to what is reachable. -/
theorem reachable_give {command : Command Argument}
    (h : Compilation.Reachable options s.compilation s.handles) (hs : s.give command = some s') :
    Compilation.Reachable options s'.compilation s'.handles := by
  obtain ⟨made, hmade, rfl⟩ := exists_of_give hs
  -- `Reachable` has a constructor for each kind of command.
  cases command with
  | call call =>
    obtain ⟨made, hcall, heq⟩ := Option.bind_eq_some_iff.mp hmade
    obtain rfl := Option.some.inj heq
    refine h.call made fun x hx => ?_
    obtain ⟨a, ha⟩ := Call.mem_operands_traverse hcall hx
    exact Argument.isConstant_or_mem ha
  | resolve name =>
    obtain rfl := Option.some.inj hmade
    have hresolve := h.resolve name
    show Compilation.Reachable options ((Command.resolve name).emit s.compilation).2 _
    rw [Command.emit]
    rcases hemit : Emit.resolve name s.compilation with ⟨e | found, c⟩
    · rw [bind_of_error hemit]
      rw [hemit] at hresolve
      simpa [handedOut] using hresolve
    · rw [bind_of_ok hemit]
      rw [hemit] at hresolve
      show Compilation.Reachable options c (s.handles ++ [])
      rwa [List.append_nil]
  | printFormatted format a =>
    obtain ⟨x, hx, heq⟩ := Option.bind_eq_some_iff.mp hmade
    obtain rfl := Option.some.inj heq
    have hprint := h.printFormatted format x (Argument.isConstant_or_mem hx)
    show Compilation.Reachable options ((Command.printFormatted format x).emit s.compilation).2 _
    rw [Command.emit]
    rcases hemit : Emit.printFormatted format x s.compilation with ⟨e | y, c⟩
    · rw [bind_of_error hemit]
      rw [hemit] at hprint
      exact hprint
    · rw [bind_of_ok hemit]
      rw [hemit] at hprint
      exact hprint

/-- `giveAll` leads from what is reachable to what is reachable. -/
theorem reachable_giveAll {commands : List (Command Argument)}
    (h : Compilation.Reachable options s.compilation s.handles)
    (hs : s.giveAll commands = some s') :
    Compilation.Reachable options s'.compilation s'.handles := by
  induction commands generalizing s with
  | nil =>
    obtain rfl := Option.some.inj hs
    exact h
  | cons command commands ih =>
    rw [giveAll_cons] at hs
    obtain ⟨s₁, hs₁, hs'⟩ := Option.bind_eq_some_iff.mp hs
    exact ih (reachable_give h hs₁) hs'

end Session

end Straightline
