import Straightline.Proofs.Script.Joining
import Straightline.Proofs.Script.Placement
import Straightline.Proofs.Script.Scanning
import Straightline.Proofs.Script.Tiling
import Straightline.Proofs.Script.Viable

/-!
# What an error points at

A step of a script fails in two ways only, and the stretch of source that is blamed for it is its
cause.

* `Step.emit_cases`: on a stack of numbers, a step leaves numbers, or is `Blamed` for a symbol that
  cannot be computed or for a read. Nothing is ever built wrongly.
* `Script.follows_steps`: behind complete statements, everything that they assign to is written.
* `AssignedBefore` says that an assignment ends before a position of the source.
* `error_points_at_cause`: the text that is blamed is the symbol, or a variable without an
  assignment before it, and every error ends inside the source.
-/

namespace Straightline

open Draft Emit

/-! ### Steps -/

/-- A step fails with an error that it causes. -/
inductive Step.Blamed (options : Options) (d : Draft) : Step → EmitError → Prop
  | operator {symbol : Symbol} (h : ¬ symbol.IsComputable) :
    Blamed options d (.apply symbol) (.unsupportedOperator symbol.text)
  | read {name : String} (hpolicy : options.reads = .error) (h : d.isWritten name = false) :
    Blamed options d (.read name) (.uninitializedRead name)

/-- A step that is `Blamed` stands for a token. -/
theorem Step.Blamed.exists_token? {options : Options} {d : Draft} {step : Step} {e : EmitError}
    (h : step.Blamed options d e) : ∃ t, step.token? = some t := by
  cases h with
  | operator | read => exact ⟨_, rfl⟩

namespace Draft

/-- Every operand on a stack is a number. -/
def AreNumbers (d : Draft) (stack : List Operand) : Prop := ∀ x ∈ stack, d.IsNumber x

/-- The empty stack has numbers only. -/
theorem areNumbers_nil {d : Draft} : d.AreNumbers [] := fun _ hx => absurd hx List.not_mem_nil

/-- `d.AreNumbers (x :: stack)` iff `x` is a number and the stack has numbers only. -/
theorem areNumbers_cons {d : Draft} {x : Operand} {stack : List Operand} :
    d.AreNumbers (x :: stack) ↔ d.IsNumber x ∧ d.AreNumbers stack := List.forall_mem_cons

/-- Numbers stay numbers while the draft grows. -/
theorem AreNumbers.grows {d d' : Draft} {stack : List Operand} (h : d.AreNumbers stack)
    (hd : Grows d d') :
    d'.AreNumbers stack := fun x hx => (h x hx).grows hd

end Draft

/-- `LeavesNumbers options d x`: on everything that follows `d`, `x` adds to it and leaves numbers
    on the stack. -/
def Emit.LeavesNumbers (options : Options) (d : Draft) (x : Emit (List Operand)) : Prop :=
  ∃ stack d', Leads options d x (· = stack) d' ∧ Grows d d' ∧ d'.AreNumbers stack

section

variable {options : Options} {d d' : Draft} {stack : List Operand}

/-- A stack of numbers that is left as it is. -/
theorem leavesNumbers_pure (h : d.AreNumbers stack) : LeavesNumbers options d (pure stack) :=
  ⟨stack, d, leads_pure rfl, .refl, h⟩

/-- A number goes on top of those on the stack. -/
theorem leavesNumbers_push {x : Emit Operand} {y : Operand} (hx : Leads options d x (· = y) d')
    (hd : Grows d d') (hy : d'.IsNumber y) (h : d.AreNumbers stack) :
    LeavesNumbers options d (x >>= fun y => pure (y :: stack)) := by
  refine ⟨y :: stack, d', hx.bind fun z hz => ?_, hd, areNumbers_cons.mpr ⟨hy, h.grows hd⟩⟩
  subst hz
  exact leads_pure rfl

/-- What has no result leaves the stack as it is. -/
theorem leavesNumbers_pop {α : Type} {x : Emit α} {Q : α → Prop} (hx : Leads options d x Q d')
    (hd : Grows d d') (h : d.AreNumbers stack) :
    LeavesNumbers options d (x >>= fun _ => pure stack) :=
  ⟨stack, d', hx.bind fun _ _ => leads_pure rfl, hd, h.grows hd⟩

/-- `d.apply op x y` is a number. -/
theorem isNumber_apply (d : Draft) (op : Operator) (x y : Operand) :
    (d.apply op x y).2.IsNumber (d.apply op x y).1 := by
  rw [IsNumber, typeOf_apply]
  cases op with
  | arithmetic => exact .inl rfl
  | comparison => exact .inr rfl

/-- On a stack of numbers, `step.emit` leaves numbers, or refuses with an error that the step is
    `Blamed` for. A step that lacks its operands does nothing. -/
theorem Step.emit_cases (options : Options) (step : Step) (h : d.AreNumbers stack) :
    LeavesNumbers options d (step.emit stack) ∨
      ∃ e, Refuses options d (step.emit stack) e ∧ step.Blamed options d e := by
  cases step with
  | push value => exact .inl (leavesNumbers_pure (areNumbers_cons.mpr ⟨.inl rfl, h⟩))
  | read name =>
    by_cases hread : options.reads = .error ∧ d.isWritten name = false
    · exact .inr ⟨_, (refuses_read hread.1 hread.2).bind, .read hread.1 hread.2⟩
    · have hwritten : options.reads = .error → d.isWritten name = true := by
        intro hpolicy
        simpa [hpolicy] using hread
      exact .inl (leavesNumbers_push (leads_read hwritten) (grows_read d _ name)
        (Expr.isNumber_lower options.reads (.var name) d) h)
  -- The only other step that can fail, if its symbol cannot be computed.
  | apply symbol =>
    cases stack with
    | nil => exact .inl (leavesNumbers_pure h)
    | cons rhs stack =>
      cases stack with
      | nil => exact .inl (leavesNumbers_pure h)
      | cons lhs stack =>
        obtain ⟨hrhs, h⟩ := areNumbers_cons.mp h
        obtain ⟨hlhs, hstack⟩ := areNumbers_cons.mp h
        by_cases hs : symbol.IsComputable
        · obtain ⟨op, rfl⟩ := hs
          exact .inl (leavesNumbers_push (leads_binaryOp op hlhs hrhs) (grows_apply d op lhs rhs)
            (isNumber_apply d op lhs rhs) hstack)
        · exact .inr ⟨_, (refuses_binaryOp hs lhs rhs).bind, .operator hs⟩
  | negate =>
    cases stack with
    | nil => exact .inl (leavesNumbers_pure h)
    | cons x stack =>
      obtain ⟨hx, hstack⟩ := areNumbers_cons.mp h
      exact .inl (leavesNumbers_push (leads_apply (.arithmetic .sub) (.inl rfl) hx)
        (grows_apply d _ _ x) (isNumber_apply d _ _ x) hstack)
  | write name =>
    cases stack with
    | nil => exact .inl (leavesNumbers_pure h)
    | cons x stack =>
      exact .inl (leavesNumbers_pop (leads_write name x) (grows_write d name x)
        (areNumbers_cons.mp h).2)
  | printNumber =>
    cases stack with
    | nil => exact .inl (leavesNumbers_pure h)
    | cons x stack =>
      exact .inl (leavesNumbers_pop (leads_printNumber x) (grows_printNumber d x)
        (areNumbers_cons.mp h).2)
  | printString text =>
    exact .inl (leavesNumbers_pop (leads_printString text) (grows_printString d text) h)

end

/-! ### Runs of steps -/

section

variable {options : Options} {d : Draft} {stack stack' : List Operand} {c c' : Compilation}

/-- Where `step.emit` succeeds, what it gives follows a draft that grew. -/
theorem Step.follows_emit {step : Step} (hc : c.Follows options d) (h : d.AreNumbers stack)
    (hstep : step.emit stack c = (.ok stack', c')) :
    ∃ d', Grows d d' ∧ c'.Follows options d' ∧ d'.AreNumbers stack' := by
  rcases step.emit_cases options h with ⟨out, d', hleads, hd, hout⟩ | ⟨e, hrefuses, -⟩
  · obtain ⟨_, c₁, heq, rfl, hc₁⟩ := hleads c hc
    obtain ⟨hstack, rfl⟩ := Prod.mk.inj (heq.symm.trans hstep)
    obtain rfl := Except.ok.inj hstack
    exact ⟨d', hd, hc₁, hout⟩
  · obtain ⟨c₁, heq⟩ := hrefuses c hc
    cases heq.symm.trans hstep

/-- Where `step.emit` fails with `e`, the step is `Blamed` for `e`. -/
theorem Step.blamed_of_emit {step : Step} (hc : c.Follows options d) (h : d.AreNumbers stack)
    {e : EmitError} (hstep : step.emit stack c = (.error e, c')) : step.Blamed options d e := by
  rcases step.emit_cases options h with ⟨out, d', hleads, -⟩ | ⟨e', hrefuses, hblamed⟩
  · obtain ⟨_, c₁, heq, -⟩ := hleads c hc
    cases heq.symm.trans hstep
  · obtain ⟨c₁, heq⟩ := hrefuses c hc
    obtain rfl := Except.error.inj (Prod.mk.inj (heq.symm.trans hstep)).1
    exact hblamed

/-- Where `emitList` succeeds, what it gives follows a draft that grew. -/
theorem Step.follows_emitList {steps : List Step} (hc : c.Follows options d)
    (h : d.AreNumbers stack) (hsteps : emitList steps stack c = (.ok stack', c')) :
    ∃ d', Grows d d' ∧ c'.Follows options d' ∧ d'.AreNumbers stack' := by
  induction steps generalizing c d stack with
  | nil =>
    obtain ⟨hstack, rfl⟩ := Prod.mk.inj hsteps
    obtain rfl := Except.ok.inj hstack
    exact ⟨d, .refl, hc, h⟩
  | cons step steps ih =>
    rw [emitList, List.foldlM_cons] at hsteps
    obtain ⟨mid, c₁, hstep, hrest⟩ := exists_of_bind_ok hsteps
    -- One step by `follows_emit`, whose stack the rest starts with.
    obtain ⟨d₁, hd₁, hc₁, hmid⟩ := follows_emit hc h hstep
    obtain ⟨d', hd', hc', hstack'⟩ := ih hc₁ hmid hrest
    exact ⟨d', hd₁.trans hd', hc', hstack'⟩

/-- Where `emitAll` fails, it fails at one step, whose place it blames, and the steps in front of it
    succeed. -/
theorem Step.exists_of_emitAll_error {placed : List PlacedStep} {e : ScriptError}
    (h : emitAll placed stack c = (.error e, c')) :
    ∃ first p last mid c₁ cause, placed = first ++ p :: last ∧
      emitList (first.map (·.step)) stack c = (.ok mid, c₁) ∧
      p.step.emit mid c₁ = (.error cause, c') ∧
      e = .emission cause p.span := by
  induction placed generalizing c stack with
  | nil => cases h
  | cons p placed ih =>
    rcases hstep : p.step.emit stack c with ⟨cause | mid, c₁⟩
    · -- The step that fails is the first one, with its span, or one of the others.
      have hemit : emitAll (p :: placed) stack c = (.error (.emission cause p.span), c₁) :=
        bind_of_error (by rw [Emit.blaming, hstep])
      obtain ⟨he, rfl⟩ := Prod.mk.inj (hemit.symm.trans h)
      exact ⟨[], p, placed, stack, c, cause, rfl, rfl, hstep, (Except.error.inj he).symm⟩
    · have hemit : emitAll (p :: placed) stack c = emitAll placed mid c₁ :=
        bind_of_ok (by rw [Emit.blaming, hstep])
      obtain ⟨first, q, last, mid', c₂, cause, rfl, hfirst, hq, he⟩ := ih (hemit.symm.trans h)
      refine ⟨p :: first, q, last, mid', c₂, cause, rfl, ?_, hq, he⟩
      rw [List.map_cons, emitList, List.foldlM_cons, bind_of_ok hstep]
      exact hfirst

/-- A complete statement leaves nothing on the stack, and what it assigns to is written. -/
theorem Statement.follows_steps {st : Statement Symbol} (hc : c.Follows options d)
    (h : Step.emitList st.steps [] c = (.ok stack, c')) :
    stack = [] ∧ ∃ d', Grows d d' ∧ c'.Follows options d' ∧
      ∀ name ∈ st.targets, d'.isWritten name = true := by
  refine ⟨Statement.stack_eq h, ?_⟩
  cases st with
  | printString | printNumber =>
    obtain ⟨d', hd', hc', -⟩ := Step.follows_emitList hc areNumbers_nil h
    exact ⟨d', hd', hc', fun name hname => absurd hname List.not_mem_nil⟩
  | assign name value =>
    rw [Statement.steps, Step.emitList_append] at h
    obtain ⟨mid, c₁, hvalue, hwrite⟩ := exists_of_bind_ok h
    obtain ⟨d₁, hd₁, hc₁, -⟩ := Step.follows_emitList hc areNumbers_nil hvalue
    obtain ⟨x, rfl⟩ := Expr.exists_stack hvalue
    rw [Step.emitList_singleton] at hwrite
    -- The value is on the stack, so it is stored.
    obtain ⟨_, c₂, hstore, -, hc₂⟩ := leads_write name x c₁ hc₁
    obtain ⟨-, rfl⟩ := Prod.mk.inj ((bind_of_ok hstore).symm.trans hwrite)
    refine ⟨d₁.write name x, hd₁.trans (grows_write d₁ name x), hc₂, fun name' hname' => ?_⟩
    obtain rfl := List.mem_singleton.mp hname'
    rw [isWritten_write, decide_eq_true rfl, Bool.true_or]

/-- Behind complete statements, everything that they assign to is written. -/
theorem Script.follows_steps {script : Script Symbol} (hc : c.Follows options d)
    (h : Step.emitList (Script.steps script) [] c = (.ok stack, c')) :
    stack = [] ∧ ∃ d', Grows d d' ∧ c'.Follows options d' ∧
      ∀ name ∈ script.flatMap Statement.targets, d'.isWritten name = true := by
  induction script generalizing c d with
  | nil =>
    obtain ⟨hstack, rfl⟩ := Prod.mk.inj h
    exact ⟨(Except.ok.inj hstack).symm, d, .refl, hc,
      fun name hname => absurd hname List.not_mem_nil⟩
  | cons st script ih =>
    rw [Script.steps_cons, Step.emitList_append] at h
    obtain ⟨mid, c₁, hst, hscript⟩ := exists_of_bind_ok h
    -- A statement leaves the stack empty, and what it wrote stays written behind it.
    obtain ⟨rfl, d₁, hd₁, hc₁, hwritten₁⟩ := Statement.follows_steps hc hst
    obtain ⟨rfl, d', hd', hc', hwritten⟩ := ih hc₁ hscript
    refine ⟨rfl, d', hd₁.trans hd', hc', fun name hname => ?_⟩
    rw [List.flatMap_cons] at hname
    rcases List.mem_append.mp hname with hname | hname
    · exact hd'.isWritten (hwritten₁ name hname)
    · exact hwritten name hname

/-- Behind complete statements and some steps of the next one, everything that was assigned to is
    written. -/
theorem Script.exists_follows {script : Script Symbol} {more : List Step} (hc : c.Follows options d)
    (h : Step.emitList (Script.steps script ++ more) [] c = (.ok stack, c')) :
    ∃ d', c'.Follows options d' ∧ d'.AreNumbers stack ∧
      ∀ name ∈ script.flatMap Statement.targets, d'.isWritten name = true := by
  rw [Step.emitList_append] at h
  obtain ⟨mid, c₁, hscript, hmore⟩ := exists_of_bind_ok h
  obtain ⟨rfl, d₁, -, hc₁, hwritten⟩ := Script.follows_steps hc hscript
  obtain ⟨d', hd', hc', hstack⟩ := Step.follows_emitList hc₁ areNumbers_nil hmore
  exact ⟨d', hc', hstack, fun name hname => hd'.isWritten (hwritten name hname)⟩

end

/-! ### Texts of tokens -/

/-- `Text.slice?` at the span of a lexeme gives its text. -/
theorem slice?_of_mem_lexemes {source : String} {l : Lexeme} (hl : l ∈ lexemes source) :
    Text.slice? l.span.start l.span.stop source.toList = some l.text := by
  obtain ⟨-, before, after, happend, hoffset⟩ :=
    (tiles_lexemesFrom 0 source.toList).exists_append hl
  rw [Nat.zero_add] at hoffset
  have hlength : l.span.stop - l.span.start = byteLength l.text := Nat.add_sub_cancel_left _ _
  have hstart : l.span.start = byteLength before := hoffset
  rw [Text.slice?, hlength, hstart, happend, List.append_assoc, Text.cutAt?_byteLength]
  show (Text.cutAt? (byteLength l.text) (l.text ++ after) >>= _) = _
  rw [Text.cutAt?_byteLength]
  rfl

/-- A lexeme ends inside the source. -/
theorem stop_le_of_mem_lexemes {source : String} {l : Lexeme} (hl : l ∈ lexemes source) :
    l.span.stop ≤ source.utf8ByteSize := by
  obtain ⟨-, before, after, happend, hoffset⟩ :=
    (tiles_lexemesFrom 0 source.toList).exists_append hl
  have hstop : l.span.stop = byteLength before + byteLength l.text := by
    rw [Span.stop, Lexeme.span, hoffset, Nat.zero_add]
  rw [hstop, ← byteLength_toList, happend, byteLength_append, byteLength_append]
  exact Nat.le_add_right _ _

/-- A token of one character that a step stands for is a symbol, written so. -/
theorem text_of_punctuation? {c : Char} {step : Step} {t : Token} (ht : step.token? = some t)
    (h : punctuation? c = some t) : [c] = t.describe.toList := by
  unfold punctuation? at h
  split at h <;> cases h
  -- Statement ends and parentheses are tokens of no step.
  case h_1 | h_2 | h_3 | h_4 => cases step <;> cases ht
  all_goals rfl

/-- The text of a token that a step stands for is `t.describe`, the text that messages name it
    by. -/
theorem scanToken_text {c : Char} {cs : List Char} {step : Step} {t : Token}
    (ht : step.token? = some t) (h : (scanToken c cs).outcome = .ok t) :
    (scanToken c cs).text = t.describe.toList := by
  have hscan := scans_scanToken c cs
  generalize scanToken c cs = s at h hscan ⊢
  cases hscan with
  | punctuation hc =>
    obtain rfl := Except.ok.inj h
    exact text_of_punctuation? ht hc
  | equal =>
    obtain rfl := Except.ok.inj h
    rfl
  | assign | literal =>
    obtain rfl := Except.ok.inj h
    cases step <;> cases ht
  -- No step stands for a number.
  | number =>
    rcases scanNumber_outcome (c :: cs) with ⟨value, hnumber⟩ | hnumber
    · obtain rfl := Except.ok.inj (hnumber.symm.trans h)
      cases step <;> cases ht
    · cases hnumber.symm.trans h
  | word =>
    obtain rfl := Except.ok.inj h
    unfold wordToken at ht ⊢
    dsimp only at ht ⊢
    split at ht
    · cases step <;> cases ht
    · next hname =>
      rw [if_neg hname]
      exact String.toList_ofList.symm
  | unterminated | unexpected => cases h

/-- The text of a lexeme that a step stands for is `t.describe`. -/
theorem text_of_mem_lexemes {source : String} {l : Lexeme} (hl : l ∈ lexemes source) {step : Step}
    {t : Token} (ht : step.token? = some t) (h : l.outcome = .ok t) :
    l.text = t.describe.toList := by
  obtain ⟨_, c, rest, -, rfl⟩ := exists_scan_of_mem hl
  exact scanToken_text ht h

/-! ### Assignments before a position -/

/-- `AssignedBefore source position name`: a variable, an equals sign and, behind them, the end of a
    statement stand before the position. -/
def AssignedBefore (source : String) (position : Nat) (name : String) : Prop :=
  ∃ before target mark value stop after, lexemes source =
    before ++ target :: mark :: value ++ stop :: after ∧
    target.outcome = .ok (.ident name) ∧ mark.outcome = .ok .assign ∧ stop.outcome = .ok .stop ∧
    stop.span.stop ≤ position

/-- Only an assignment has an equals sign, and in front of it there is the variable that it assigns
    to. -/
theorem Statement.Reads.mem_targets {st : Statement Symbol} {before value : List Token}
    {name : String} (h : st.Reads id (before ++ .ident name :: .assign :: value)) :
    name ∈ st.targets := by
  generalize hts : before ++ .ident name :: .assign :: value = ts at h
  cases h with
  | printString text =>
    have hmem : Token.assign ∈ [.print, .str text] := hts ▸ by simp
    simp at hmem
  | @printNumber us e he =>
    have hmem : Token.assign ∈ Token.print :: us := hts ▸ by simp
    exact absurd (by simpa using hmem) he.notMem.2
  | @assign us e name' he =>
    -- The `=` can only be the second token, as an expression has none.
    rcases before with _ | ⟨t, _ | ⟨u, before⟩⟩
    · obtain ⟨hname, -⟩ := List.cons.inj hts
      obtain rfl := Token.ident.inj hname
      exact List.mem_singleton_self name
    · cases (List.cons.inj (List.cons.inj hts).2).1
    · have hus : before ++ .ident name :: .assign :: value = us :=
        (List.cons.inj (List.cons.inj hts).2).2
      exact absurd (hus ▸ by simp) he.notMem.2

/-- In front of a statement end, an assignment is one of the statements that are complete. -/
theorem Script.Reads.mem_targets {complete current before value after : List Token}
    {script : Script Symbol} {name : String} (h : script.Reads id complete)
    (hcurrent : .stop ∉ current)
    (hts : complete ++ current = before ++ .ident name :: .assign :: (value ++ .stop :: after)) :
    name ∈ script.flatMap Statement.targets := by
  induction h generalizing before with
  | nil =>
    rw [List.nil_append] at hts
    exact absurd (hts ▸ by simp) hcurrent
  | @last ts st hst =>
    have hstop : Token.stop ∈ ts ++ current := hts ▸ by simp
    rcases List.mem_append.mp hstop with hstop | hstop
    · exact absurd hstop hst.stop_notMem
    · exact absurd hstop hcurrent
  | stop _ ih =>
    rcases before with _ | ⟨t, before⟩
    · cases (List.cons.inj hts).1
    · exact ih (List.cons.inj hts).2
  | @cons ts us st script hst _ ih =>
    rw [List.flatMap_cons]
    rw [List.append_assoc, List.cons_append] at hts
    rcases List.append_eq_append_iff.mp hts with ⟨more, rfl, hmore⟩ | ⟨more, rfl, hmore⟩
    · -- The assignment stands behind the first statement.
      rcases more with _ | ⟨t, more⟩
      · cases (List.cons.inj hmore).1
      · exact List.mem_append_right _ (ih (List.cons.inj hmore).2)
    · -- It is the first statement, which has no statement end in it.
      rcases more with _ | ⟨t, _ | ⟨u, more⟩⟩
      · cases (List.cons.inj hmore).1
      · cases (List.cons.inj (List.cons.inj hmore).2).1
      · obtain ⟨rfl, hrest⟩ := List.cons.inj hmore
        obtain ⟨rfl, -⟩ := List.cons.inj hrest
        exact List.mem_append_left _ hst.mem_targets

/-- Lexemes that end before another one stand in front of it. -/
theorem exists_of_stop_le {source : String} {first last before after : List Lexeme}
    {l stop : Lexeme} (hl : lexemes source = first ++ l :: last)
    (hstop : lexemes source = before ++ stop :: after) (hle : stop.span.stop ≤ l.span.start) :
    ∃ more, first = before ++ stop :: more := by
  have htiles : Tiles 0 source.toList (lexemes source) := tiles_lexemesFrom 0 source.toList
  have hlength : ∀ l ∈ lexemes source, l.span.start < l.span.stop := fun l hl =>
    Nat.lt_add_of_pos_right (byteLength_pos (htiles.exists_append hl).1)
  have hlt := hlength l (hl ▸ by simp)
  have hlt' := hlength stop (hstop ▸ by simp)
  rcases List.append_eq_append_iff.mp (hstop.symm.trans hl) with
    ⟨more, rfl, hmore⟩ | ⟨more, rfl, hmore⟩
  · rcases more with _ | ⟨x, more⟩
    · obtain ⟨rfl, -⟩ := List.cons.inj hmore
      omega
    · obtain ⟨rfl, -⟩ := List.cons.inj hmore
      exact ⟨more, rfl⟩
  · rcases more with _ | ⟨x, more⟩
    · obtain ⟨rfl, -⟩ := List.cons.inj hmore
      omega
    · -- Otherwise it would stand behind it.
      obtain ⟨rfl, rfl⟩ := List.cons.inj hmore
      have hpairwise := htiles.pairwise
      rw [hl, List.pairwise_append, List.pairwise_cons] at hpairwise
      have := hpairwise.2.1.1 stop (by simp)
      omega

/-- What no complete statement assigns to is not assigned before what follows them. -/
theorem not_assignedBefore {source : String} {before after : List Lexeme} {l : Lexeme}
    {complete current : List Token} {script : Script Symbol} {name : String}
    (hsource : lexemes source = before ++ l :: after)
    (hbefore : before.map (·.outcome) = (complete ++ current).map .ok)
    (hscript : script.Reads id complete) (hcurrent : .stop ∉ current)
    (hname : name ∉ script.flatMap Statement.targets) :
    ¬ AssignedBefore source l.span.start name := by
  rintro ⟨pre, target, mark, value, stop, post, hlexemes, htarget, hmark, hstop, hle⟩
  obtain ⟨more, rfl⟩ := exists_of_stop_le hsource hlexemes hle
  rw [List.append_assoc, List.cons_append, List.cons_append, List.map_append, List.map_cons,
    List.map_cons, List.map_append, List.map_cons, htarget, hmark, hstop] at hbefore
  -- Taken apart, the tokens show `name`, `=` and the `;` behind the value.
  obtain ⟨us, vs, hts, -, hvs⟩ := List.map_eq_append_iff.mp hbefore.symm
  obtain ⟨t, vs, rfl, ht, hvs⟩ := List.map_eq_cons_iff.mp hvs
  obtain ⟨u, vs, rfl, hu, hvs⟩ := List.map_eq_cons_iff.mp hvs
  obtain ⟨ws, xs, rfl, -, hxs⟩ := List.map_eq_append_iff.mp hvs
  obtain ⟨x, xs, rfl, hx, -⟩ := List.map_eq_cons_iff.mp hxs
  obtain rfl := Except.ok.inj ht
  obtain rfl := Except.ok.inj hu
  obtain rfl := Except.ok.inj hx
  exact hname (hscript.mem_targets hcurrent hts)

/-! ### Errors of sources -/

/-- A token that was reached is a lexeme of the source, and so are those before it. -/
theorem exists_lexeme_of_consumes {source : String} {ts : List Token} {t : Token} {span : Span}
    {rest : TokenStream} (h : (TokenStream.ofSource source).Consumes ts (.token t span rest)) :
    ∃ before l after, lexemes source = before ++ l :: after ∧ before.map (·.outcome) = ts.map .ok ∧
      l.outcome = .ok t ∧ l.span = span := by
  obtain ⟨before, after, hsource, hbefore, hafter⟩ := h.exists_lexemes
  cases after with
  | nil => cases hafter
  | cons l after =>
    rw [TokenStream.ofLexemes] at hafter
    cases hl : l.outcome with
    | error fault =>
      rw [hl] at hafter
      cases hafter
    | ok t' =>
      rw [hl] at hafter
      obtain ⟨rfl, rfl, -⟩ := TokenStream.token.inj hafter
      exact ⟨before, l, after, hsource, hbefore, hl, rfl⟩

/-- A compilation that fails with `emission` fails in one step, behind others that succeed. -/
theorem exists_of_compile_emission {source : String} {options : Options} {cause : EmitError}
    {span : Span} (h : compile source options = .error (.emission cause span)) :
    ∃ first p last stack c c', (parse source).steps = first ++ p :: last ∧ p.span = span ∧
      Step.emitList (first.map (·.step)) [] { options } = (.ok stack, c) ∧
      p.step.emit stack c = (.error cause, c') := by
  -- Errors come from a step, from the reading or from `finish`, and the last two are of other
  -- kinds.
  have hempty := Compilation.follows_empty options
  rcases hall : Step.emitAll (parse source).steps [] { options } with ⟨e | stack, c⟩
  · have hinto : compileInto source { options } = (.error e, c) := by
      rw [compileInto, bind_of_error hall]
    obtain rfl := Except.error.inj ((compile_of_error hinto).symm.trans h)
    obtain ⟨first, p, last, mid, c₁, cause', hsteps, hfirst, hp, he⟩ :=
      Step.exists_of_emitAll_error hall
    obtain ⟨rfl, rfl⟩ := ScriptError.emission.inj he
    exact ⟨first, p, last, mid, c₁, c, hsteps, rfl, hfirst, hp⟩
  · rcases hlist : Step.emitList ((parse source).steps.map (·.step)) [] { options } with
      ⟨e | stack', c'⟩
    · obtain ⟨span', hinto⟩ := compileInto_of_error hlist
      rw [compileInto, bind_of_ok hall] at hinto
      cases houtcome : (parse source).outcome <;> rw [houtcome] at hinto <;> cases hinto
    · have hinto := compileInto_of_ok hlist
      cases houtcome : (parse source).outcome with
      | error e =>
        rw [houtcome] at hinto
        cases (compile_of_error hinto).symm.trans h
      | ok u =>
        rw [houtcome] at hinto
        obtain ⟨d, -, hd, -⟩ := Step.follows_emitList hempty areNumbers_nil hlist
        obtain ⟨c'', hfinish, -⟩ := hd.finish
        cases (compile_of_finish hinto hfinish).symm.trans h

/-- The span of an `emission` error is that of a lexeme, which is the symbol or the variable that is
    to blame. No statement that is complete before it assigns to this variable. -/
theorem exists_lexeme_of_compile_emission {source : String} {options : Options} {cause : EmitError}
    {span : Span} (h : compile source options = .error (.emission cause span)) :
    ∃ l ∈ lexemes source, l.span = span ∧
      ((∃ symbol : Symbol, ¬ symbol.IsComputable ∧ cause = .unsupportedOperator symbol.text ∧
          l.text = symbol.text.toList) ∨
        ∃ name, options.reads = .error ∧ cause = .uninitializedRead name ∧ l.text = name.toList ∧
          ¬ AssignedBefore source span.start name) := by
  obtain ⟨first, p, last, stack, c, c', hsteps, rfl, hfirst, hp⟩ := exists_of_compile_emission h
  have hempty := Compilation.follows_empty options
  obtain ⟨d, -, hd, hstack⟩ := Step.follows_emitList hempty areNumbers_nil hfirst
  obtain ⟨t, ht⟩ := (Step.blamed_of_emit hd hstack hp).exists_token?
  -- The step belongs to a statement, and those before it are complete.
  obtain ⟨complete, current, script, more, rest, hc, hscript, hcurrent, hmore⟩ :=
    TokenStream.program_split hsteps ht
  obtain ⟨before, l, after, hsource, hbefore, hl, hspan⟩ := exists_lexeme_of_consumes hc
  rw [hmore] at hfirst
  obtain ⟨d₁, hd₁, hstack₁, hwritten⟩ := Script.exists_follows hempty hfirst
  have hmem : l ∈ lexemes source := hsource ▸ by simp
  have htext := text_of_mem_lexemes hmem ht hl
  have hblamed := Step.blamed_of_emit hd₁ hstack₁ hp
  refine ⟨l, hmem, hspan, ?_⟩
  generalize p.step = step at ht hblamed
  cases hblamed with
  | @operator symbol hsymbol =>
    obtain rfl := Option.some.inj ht
    exact .inl ⟨symbol, hsymbol, rfl, htext⟩
  | @read name hpolicy hunwritten =>
    obtain rfl := Option.some.inj ht
    refine .inr ⟨name, hpolicy, rfl, htext, ?_⟩
    rw [← hspan]
    refine not_assignedBefore hsource hbefore hscript hcurrent fun hname => ?_
    rw [hwritten name hname] at hunwritten
    cases hunwritten

/-- The span of an error of `parse` ends inside the source: it is that of a lexeme, or the end. -/
theorem stop_le_of_parse_fails {source : String} {e : SyntaxError} (h : (parse source).Fails e) :
    e.diagnostic.span.stop ≤ source.utf8ByteSize := by
  obtain ⟨ts, rest, hc, hrest⟩ := parse_fails h
  obtain ⟨before, after, hsource, -, rfl⟩ := hc.exists_lexemes
  cases after with
  -- At the end of the source the span is the end itself.
  | nil =>
    rcases hrest with hrest | ⟨-, -, expected, rfl⟩
    · cases hrest
    · exact Nat.le_refl _
  | cons l after =>
    -- Before it the span is the one of a lexeme, readable or not.
    have hle := stop_le_of_mem_lexemes (hsource ▸ by simp : l ∈ lexemes source)
    rw [TokenStream.ofLexemes] at hrest
    cases hl : l.outcome with
    | ok t =>
      rw [hl] at hrest
      rcases hrest with hrest | ⟨-, -, expected, rfl⟩
      · cases hrest
      · exact hle
    | error fault =>
      rw [hl] at hrest
      rcases hrest with hrest | ⟨hreadable, -⟩
      · obtain rfl := TokenStream.broken.inj hrest
        cases fault <;> exact hle
      · exact absurd rfl (hreadable _)

/-- A compilation that fails at a step points at a symbol that cannot be computed, or, where such
    reads are refused, at a variable that no assignment before it assigns to. Every error points at
    a place that ends inside the source. -/
theorem error_points_at_cause (source : String) (options : Options) :
    (∀ cause span, compile source options = .error (.emission cause span) →
      (∃ symbol ∈ [Symbol.percent, .caret, .equal], cause = .unsupportedOperator symbol.text ∧
        Text.slice? span.start span.stop source.toList = some symbol.text.toList) ∨
      options.reads = .error ∧ ∃ name, cause = .uninitializedRead name ∧
        Text.slice? span.start span.stop source.toList = some name.toList ∧
        ¬ AssignedBefore source span.start name) ∧
    ∀ e, compile source options = .error e → e.diagnostic.span.stop ≤ source.utf8ByteSize := by
  refine ⟨fun cause span h => ?_, fun e h => ?_⟩
  · obtain ⟨l, hl, rfl, hcause⟩ := exists_lexeme_of_compile_emission h
    rw [slice?_of_mem_lexemes hl]
    rcases hcause with ⟨symbol, hsymbol, rfl, htext⟩ | ⟨name, hpolicy, rfl, htext, hassigned⟩
    · refine .inl ⟨symbol, ?_, rfl, congrArg some htext⟩
      -- Three symbols have no instruction.
      rw [Symbol.isComputable_iff] at hsymbol
      cases symbol <;> simp at hsymbol ⊢
    · exact .inr ⟨hpolicy, name, rfl, congrArg some htext, hassigned⟩
  · cases e with
    | malformed e => exact stop_le_of_parse_fails (parse_fails_of_compile h)
    | emission cause span =>
      obtain ⟨l, hl, rfl, -⟩ := exists_lexeme_of_compile_emission h
      exact stop_le_of_mem_lexemes hl

/-- The variable that is read is assigned to by its own statement and by the next one, which are
    both too late. The operator fails behind its right operand. -/
theorem error_points_at_cause_sample :
    let options : Options := { reads := .error }
    compile "é = 1\nx = é + x; x = 1" options =
      .error (.emission (.uninitializedRead "x") ⟨16, 1⟩) ∧
    ¬ AssignedBefore "é = 1\nx = é + x; x = 1" 16 "x" ∧
    compile "é = 1\nprint é == (2 + é)" options =
      .error (.emission (.unsupportedOperator "==") ⟨16, 2⟩) ∧
    Text.slice? 16 18 "é = 1\nprint é == (2 + é)".toList = some ['=', '='] := by
  intro options
  have hread : compile "é = 1\nx = é + x; x = 1" options =
      .error (.emission (.uninitializedRead "x") ⟨16, 1⟩) := by decide +kernel
  have hequal : compile "é = 1\nprint é == (2 + é)" options =
      .error (.emission (.unsupportedOperator "==") ⟨16, 2⟩) := by decide +kernel
  refine ⟨hread, ?_, hequal, ?_⟩
  · rcases (error_points_at_cause _ options).1 _ _ hread with
      ⟨symbol, -, hcause, -⟩ | ⟨-, name, hcause, -, hassigned⟩
    · cases hcause
    · obtain rfl := EmitError.uninitializedRead.inj hcause
      exact hassigned
  · rcases (error_points_at_cause _ options).1 _ _ hequal with
      ⟨symbol, -, hcause, hslice⟩ | ⟨-, name, hcause, -⟩
    · rw [← EmitError.unsupportedOperator.inj hcause] at hslice
      exact hslice
    · cases hcause

end Straightline
