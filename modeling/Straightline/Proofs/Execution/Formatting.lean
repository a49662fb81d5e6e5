import Straightline.Proofs.Execution.Running

/-!
# What a format prints

A format is cut into pieces, and every piece prints a text of its own. Printing changes the machine
in place: the text is put together first, and only if all of it is there it is added to the output.

* `Piece` are the parts of a format, `Piece.Prints` says which arguments a piece takes and what it
  prints of them, and `Prints` joins the texts of pieces.
* `Offends` says what is wrong with a percent sign that starts no piece, or one whose argument is
  missing or unfit.
* `Module.completes_or_offends`: pieces and their arguments go up to the end of a format, or up to a
  percent sign that offends.
* `Executing` is a step that leaves a machine behind whether it fails or not, and `Executing.call`
  makes a call in such steps. `Executing.call_eq`: it agrees with `Machine.call`.
* `Machine.call_printf`: a call succeeds iff the pieces go up to the end of the format, and fails as
  `Offends` says, with the machine as it was.
-/

namespace Straightline

/-- A part of a format. -/
inductive Piece where
  | plain (c : Char) (ne : c ≠ '%')
  /-- A percent sign, written twice. -/
  | percent
  /-- The conversion of a constant's text. -/
  | text
  /-- The conversion of a double. -/
  | number

/-- A piece as it stands in a format. -/
def Piece.source : Piece → List Char
  | plain c _ => [c]
  | percent => ['%', '%']
  | text => ['%', 's']
  | number => ['%', 'f']

theorem Piece.source_ne_nil (p : Piece) : p.source ≠ [] := by
  cases p <;> simp [source]

/-- `p.Prints m vs t` says that the piece `p` takes the arguments `vs` and prints `t`. A text has to
    be that of a constant of the module. -/
inductive Piece.Prints (m : Module) : Piece → List Value → String → Prop
  | plain (c : Char) (ne : c ≠ '%') : Prints m (.plain c ne) [] (String.singleton c)
  | percent : Prints m .percent [] "%"
  | text {i : Nat} {g : Global} (h : m.globals[i]? = some g) :
      Prints m .text [.pointer (.global i)] g.contents
  | number (d : Double) : Prints m .number [.double d] (d.toFixed 6)

/-- `Prints m ps vs t`: the pieces `ps` take the arguments `vs`, from left to right, and print `t`
    together. -/
inductive Prints (m : Module) : List Piece → List Value → String → Prop
  | nil : Prints m [] [] ""
  | cons {p : Piece} {ps : List Piece} {vs ws : List Value} {t u : String} :
      p.Prints m vs t → Prints m ps ws u → Prints m (p :: ps) (vs ++ ws) (t ++ u)

/-- `Offends m format cs args e` says what is wrong with a percent sign that is followed by `cs`,
    when the arguments `args` are left. -/
inductive Offends (m : Module) (format : String) : List Char → List Value → RunError → Prop
  | unsupported {cs : List Char} (args : List Value)
      (h : ∀ c, cs.head? = some c → c ∉ ['%', 's', 'f']) :
      Offends m format cs args (.badFormat (.unsupportedConversion cs.head?))
  | missing {c : Char} (cs : List Char) (h : c ∈ ['s', 'f']) :
      Offends m format (c :: cs) [] (.badFormat (.notEnoughArguments format))
  | notText {v : Value} (cs : List Char) (args : List Value) (h : ∀ i, v ≠ .pointer (.global i)) :
      Offends m format ('s' :: cs) (v :: args) (.typeMismatch .stringPointer v.ty)
  /-- A pointer to a constant that the module does not have. -/
  | dangling {i : Nat} (cs : List Char) (args : List Value) (h : m.globals[i]? = none) :
      Offends m format ('s' :: cs) (.pointer (.global i) :: args)
      (.typeMismatch .stringPointer .void)
  | notNumber {v : Value} (cs : List Char) (args : List Value) (h : ∀ d, v ≠ .double d) :
      Offends m format ('f' :: cs) (v :: args) (.typeMismatch .double v.ty)

namespace Module

variable {m : Module} {format : String}

/-! ### Rendering pieces -/

/-- `constantText` looks only pointers up in the module. -/
theorem constantText_of_ne {v : Value} (h : v.ty ≠ .ptr) (m m' : Module) :
    m.constantText v = m'.constantText v := by
  cases v with
  | bool | int | double => rfl
  | pointer target => exact absurd rfl h

/-- `render` makes the same text in two modules that have the same texts for its arguments. -/
theorem render_congr {m m' : Module} {args : List Value}
    (h : ∀ v ∈ args, m.constantText v = m'.constantText v) (format : String) (cs : List Char) :
    m.render format cs args = m'.render format cs args := by
  -- By induction as `render` goes. Only `%s` looks at the module.
  fun_induction m.render format cs args with
  | case1 => rfl
  | case2 cs args ih => rw [render, ih h]
  | case3 cs args ih =>
    rw [render]
    cases args with
    | nil => simp only [nextArgument, bind, Except.bind]
    | cons v args =>
      have hrest := ih args fun w hw => h w (by simp [hw])
      simp only [nextArgument, bind, Except.bind, h v (by simp), hrest]
  | case4 cs args ih =>
    rw [render]
    cases args with
    | nil => simp only [nextArgument, bind, Except.bind]
    | cons v args =>
      have hrest := ih args fun w hw => h w (by simp [hw])
      simp only [nextArgument, bind, Except.bind, hrest]
  | case5 cs args hpercent htext hnumber => rw [render] <;> assumption
  | case6 args c cs hpercent htext hnumber hother ih => rw [render, ih h] <;> assumption

/-- `render` prints the text of a piece and leaves the rest of the format with the rest of the
    arguments. -/
theorem render_piece {p : Piece} {vs : List Value} {t : String} (h : p.Prints m vs t)
    (cs : List Char) (args : List Value) :
    m.render format (p.source ++ cs) (vs ++ args) = (t ++ ·) <$> m.render format cs args := by
  cases h with
  | plain c ne =>
    show m.render format (c :: cs) args = _
    -- The last equation of `render`, which is for a character that begins no conversion.
    rw [render.eq_6 _ _ _ _ _ (fun _ hc => absurd hc ne) (fun _ hc => absurd hc ne)
      (fun _ hc => absurd hc ne) ne]
    cases m.render format cs args <;> rfl
  | percent =>
    show m.render format ('%' :: '%' :: cs) args = _
    rw [render]
    cases m.render format cs args <;> rfl
  | @text i g hg =>
    have htext : m.constantText (.pointer (.global i)) = .ok g.contents := by
      rw [constantText, hg]
    show m.render format ('%' :: 's' :: cs) (.pointer (.global i) :: args) = _
    rw [render]
    -- The text of the constant comes in front of the rest.
    show (m.constantText (.pointer (.global i)) >>= fun text =>
      m.render format cs args >>= fun rest => pure (text ++ rest)) = _
    rw [htext]
    show (m.render format cs args >>= fun rest => pure (g.contents ++ rest)) = _
    cases m.render format cs args <;> rfl
  | number d =>
    show m.render format ('%' :: 'f' :: cs) (.double d :: args) = _
    rw [render]
    show (m.render format cs args >>= fun rest => pure (d.toFixed 6 ++ rest)) = _
    cases m.render format cs args <;> rfl

/-- `render` prints the texts of pieces in a row. -/
theorem render_pieces {ps : List Piece} {vs : List Value} {t : String} (h : Prints m ps vs t)
    (cs : List Char) (args : List Value) :
    m.render format (ps.flatMap Piece.source ++ cs)
    (vs ++ args) = (t ++ ·) <$> m.render format cs args := by
  induction h with
  | nil =>
    show m.render format cs args = _
    cases m.render format cs args <;> simp
  | cons hp hps ih =>
    rw [List.flatMap_cons, List.append_assoc, List.append_assoc, render_piece hp, ih]
    cases m.render format cs args <;> simp [String.append_assoc]

/-- `render` fails at a percent sign that offends. -/
theorem render_of_offends {cs : List Char} {args : List Value} {e : RunError}
    (h : Offends m format cs args e) :
    m.render format ('%' :: cs) args = .error e := by
  -- One case per kind of offence; each is one branch of `render`.
  cases h with
  | unsupported args h =>
    have hne : ∀ c ∈ ['%', 's', 'f'], ∀ cs', cs ≠ c :: cs' := by
      rintro c hc cs' rfl
      exact h c rfl hc
    rw [render.eq_5]
    · exact hne '%' (by simp)
    · exact hne 's' (by simp)
    · exact hne 'f' (by simp)
  | missing cs h =>
    rcases List.mem_pair.mp h with rfl | rfl <;> rfl
  | @notText v cs args h =>
    rw [render]
    cases v with
    | pointer target =>
      cases target with
      | slot i => rfl
      | global i => exact absurd rfl (h i)
    | bool | int | double => rfl
  | @dangling i cs args h =>
    rw [render]
    show (m.constantText (.pointer (.global i)) >>= _) = _
    rw [constantText, h]
    rfl
  | @notNumber v cs args h =>
    rw [render]
    cases v with
    | double d => exact absurd rfl (h d)
    | bool | int | pointer => rfl

/-! ### Every format completes or offends -/

/-- A conversion finds the argument that it takes, or `Offends`. -/
theorem conversion_cases {c : Char} (hc : c ∈ ['%', 's', 'f']) (cs : List Char)
    (args : List Value) :
    (∃ p vs t args', '%' :: c :: cs = Piece.source p ++ cs ∧ args = vs ++ args' ∧ p.Prints m vs t) ∨
      ∃ e, Offends m format (c :: cs) args e := by
  simp only [List.mem_cons, List.not_mem_nil, or_false] at hc
  rcases hc with rfl | rfl | rfl
  · exact .inl ⟨_, _, _, args, rfl, rfl, .percent⟩
  · cases args with
    | nil => exact .inr ⟨_, .missing cs (by simp)⟩
    | cons v args =>
      by_cases hv : ∃ i, v = .pointer (.global i)
      · obtain ⟨i, rfl⟩ := hv
        -- A pointer to a constant prints it, if there is one.
        cases hi : m.globals[i]? with
        | none => exact .inr ⟨_, .dangling cs args hi⟩
        | some g => exact .inl ⟨_, _, _, args, rfl, rfl, .text hi⟩
      · exact .inr ⟨_, .notText cs args (not_exists.mp hv)⟩
  · cases args with
    | nil => exact .inr ⟨_, .missing cs (by simp)⟩
    | cons v args =>
      by_cases hv : ∃ d, v = .double d
      · obtain ⟨d, rfl⟩ := hv
        exact .inl ⟨_, _, _, args, rfl, rfl, .number d⟩
      · exact .inr ⟨_, .notNumber cs args (not_exists.mp hv)⟩

/-- A format that has not ended starts with a piece and its arguments, or with a percent sign that
    `Offends`. -/
theorem starts_with_piece_or_offends (c : Char) (cs : List Char) (args : List Value) :
    (∃ p vs t cs' args', c :: cs = Piece.source p ++ cs' ∧ args = vs ++ args' ∧ p.Prints m vs t) ∨
      ∃ e, c = '%' ∧ Offends m format cs args e := by
  by_cases hc : c = '%'
  · subst hc
    by_cases hcs : ∀ x, cs.head? = some x → x ∉ ['%', 's', 'f']
    · exact .inr ⟨_, rfl, .unsupported args hcs⟩
    · push Not at hcs
      obtain ⟨x, hx, hmem⟩ := hcs
      -- A known conversion fails by its value only.
      obtain ⟨cs', rfl⟩ := List.head?_eq_some_iff.mp hx
      rcases conversion_cases (m := m) hmem cs' args with ⟨p, vs, t, args', h⟩ | ⟨e, h⟩
      · exact .inl ⟨p, vs, t, cs', args', h⟩
      · exact .inr ⟨e, rfl, h⟩
  · exact .inl ⟨_, _, _, cs, args, rfl, rfl, .plain c hc⟩

/-- The pieces of a format go up to its end, or up to the first percent sign that `Offends`. -/
theorem completes_or_offends (m : Module) (format : String) (cs : List Char) (args : List Value) :
    (∃ ps vs extra t, cs = ps.flatMap Piece.source ∧ args = vs ++ extra ∧ Prints m ps vs t) ∨
      ∃ ps vs rest t cs' e, cs = ps.flatMap Piece.source ++ '%' :: cs' ∧ args = vs ++ rest ∧
        Prints m ps vs t ∧
        Offends m format cs' rest e := by
  -- By induction on the length: a piece is one or two characters.
  induction hn : cs.length using Nat.strongRecOn generalizing cs args with
  | ind n ih =>
    subst hn
    cases cs with
    | nil => exact .inl ⟨[], [], args, "", rfl, rfl, .nil⟩
    | cons c cs =>
      rcases starts_with_piece_or_offends c cs args with
        ⟨p, vs, t, cs', args', hcs, rfl, hp⟩ | ⟨e, rfl, h⟩
      · have hlt : cs'.length < (c :: cs).length := by
          rw [hcs, List.length_append]
          have := List.length_pos_iff.mpr (Piece.source_ne_nil p)
          omega
        rw [hcs]
        rcases ih _ hlt cs' args' rfl with ⟨ps, ws, extra, u, rfl, rfl, hps⟩ |
          ⟨ps, ws, rest, u, cs'', e, rfl, rfl, hps, h⟩
        · exact .inl ⟨p :: ps, vs ++ ws, extra, t ++ u, rfl,
            (List.append_assoc ..).symm, .cons hp hps⟩
        · exact .inr ⟨p :: ps, vs ++ ws, rest, t ++ u, cs'', e, (List.append_assoc ..).symm,
            (List.append_assoc ..).symm, .cons hp hps, h⟩
      · exact .inr ⟨[], [], args, "", cs, e, rfl, rfl, .nil, h⟩

/-! ### Outcomes -/

/-- `render` succeeds on pieces that find their arguments. More arguments do no harm. -/
theorem render_of_prints {ps : List Piece} {vs : List Value} {t : String} (h : Prints m ps vs t)
    (extra : List Value) :
    m.render format (ps.flatMap Piece.source) (vs ++ extra) = .ok t := by
  rw [← List.append_nil (ps.flatMap Piece.source), render_pieces h, render]
  show Except.ok (t ++ "") = _
  rw [String.append_empty]

/-- `render` fails on pieces with an offending percent sign behind them. -/
theorem render_of_prints_offends {ps : List Piece} {vs rest : List Value} {t : String}
    {cs : List Char} {e : RunError} (h : Prints m ps vs t) (he : Offends m format cs rest e) :
    m.render format (ps.flatMap Piece.source ++ '%' :: cs) (vs ++ rest) = .error e := by
  rw [render_pieces h, render_of_offends he]
  rfl

/-- `render` succeeds with `t` iff the format is made of pieces that print `t`. -/
theorem render_eq_ok_iff {cs : List Char} {args : List Value} {t : String} :
    m.render format cs args = .ok t ↔
      ∃ ps vs extra, cs = ps.flatMap Piece.source ∧ args = vs ++ extra ∧ Prints m ps vs t := by
  constructor
  · intro h
    rcases completes_or_offends m format cs args with ⟨ps, vs, extra, u, rfl, rfl, hps⟩ |
      ⟨ps, vs, rest, u, cs', e, rfl, rfl, hps, he⟩
    · rw [render_of_prints hps] at h
      obtain rfl := Except.ok.inj h
      exact ⟨ps, vs, extra, rfl, rfl, hps⟩
    · rw [render_of_prints_offends hps he] at h
      cases h
  · rintro ⟨ps, vs, extra, rfl, rfl, hps⟩
    exact render_of_prints hps extra

/-- `render` fails with `e` iff the pieces stop before a percent sign that offends with `e`. -/
theorem render_eq_error_iff {cs : List Char} {args : List Value} {e : RunError} :
    m.render format cs args = .error e ↔
      ∃ ps vs rest t cs', cs = ps.flatMap Piece.source ++ '%' :: cs' ∧ args = vs ++ rest ∧
        Prints m ps vs t ∧
        Offends m format cs' rest e := by
  constructor
  · intro h
    rcases completes_or_offends m format cs args with ⟨ps, vs, extra, u, rfl, rfl, hps⟩ |
      ⟨ps, vs, rest, u, cs', e', rfl, rfl, hps, he⟩
    · rw [render_of_prints hps] at h
      cases h
    · rw [render_of_prints_offends hps he] at h
      obtain rfl := Except.error.inj h
      exact ⟨ps, vs, rest, u, cs', rfl, rfl, hps, he⟩
  · rintro ⟨ps, vs, rest, t, cs', rfl, rfl, hps, he⟩
    exact render_of_prints_offends hps he

end Module

/-! ### Printing in place -/

/-- A step of running code that leaves a machine behind whether it fails or not. -/
abbrev Executing := ExceptT RunError (StateM Machine)

namespace Executing

/-- The value of an operand. -/
def eval (operand : Operand) : Executing Value := do
  MonadExcept.ofExcept ((← get).eval operand)

/-- Go through the rest of a format. `out` is the text that was put together so far. -/
def render (m : Module) (format : String) : List Char → List Value → String → Executing String
  | [], _, out => return out
  | '%' :: '%' :: cs, args, out => render m format cs args (out ++ "%")
  | '%' :: 's' :: cs, args, out => do
    let (v, args) ← MonadExcept.ofExcept (Module.nextArgument format args)
    let text ← MonadExcept.ofExcept (m.constantText v)
    render m format cs args (out ++ text)
  | '%' :: 'f' :: cs, args, out => do
    let (v, args) ← MonadExcept.ofExcept (Module.nextArgument format args)
    let d ← MonadExcept.ofExcept v.asDouble
    render m format cs args (out ++ d.toFixed 6)
  | '%' :: cs, _, _ => throw (.badFormat (.unsupportedConversion cs.head?))
  | c :: cs, args, out => render m format cs args (out ++ String.singleton c)

/-- Print what a format, which comes first, makes of the other arguments. The result is the number
    of bytes. -/
def printf (m : Module) : List Value → Executing Value
  | [] => throw (.badFormat .missingFormat)
  | format :: args => do
    let format ← MonadExcept.ofExcept (m.constantText format)
    let out ← render m format format.toList args ""
    modify fun s => { s with output := s.output ++ out }
    return .int (Int32.ofNat out.utf8ByteSize)

/-- Call a function with the values of operands. -/
def call (m : Module) (callee : Nat) (args : List Operand) : Executing Value :=
  match m.functions[callee]? with
  | none => throw (.unsupportedCall "")
  | some f => do
    if Machine.isCallable f then
      let values ← args.mapM eval
      printf m values
    else throw (.unsupportedCall f.name)

variable {m : Module} {s : Machine}

/-- Looking up the values of operands changes nothing. -/
theorem mapM_eval_eq (args : List Operand) : args.mapM eval s = (args.mapM s.eval, s) := by
  induction args with
  | nil => rfl
  | cons x args ih =>
    -- By induction: one look leaves the machine, and so do the others.
    have hx : eval x s = (s.eval x, s) := ofExcept_eq _
    rw [List.mapM_cons, List.mapM_cons]
    cases hv : s.eval x with
    | error e =>
      rw [hv] at hx
      exact bind_of_error hx
    | ok v =>
      rw [hv] at hx
      rw [bind_of_ok hx]
      cases hvs : args.mapM s.eval with
      | error e =>
        rw [hvs] at ih
        exact bind_of_error ih
      | ok vs =>
        rw [hvs] at ih
        exact bind_of_ok ih

/-- What stands in front of a text can be added to what was put together before. -/
theorem map_append_bind (x : Except RunError String) (out text : String) :
    (out ++ ·) <$> (x >>= fun rest => pure (text ++ rest)) = (out ++ text ++ ·) <$> x := by
  cases x with
  | error e => rfl
  | ok rest => exact congrArg Except.ok (String.append_assoc ..).symm

/-- Going through a format adds to `out` what `Module.render` makes of it, and changes nothing else:
    `render m format cs args out` gives `out ++ text` where `m.render format cs args` gives
    `text`. -/
theorem render_eq (format : String) (cs : List Char) (args : List Value) (out : String) :
    render m format cs args out s = ((out ++ ·) <$> m.render format cs args, s) := by
  -- Along the equations of `Module.render`: what was put together so far grows by each piece.
  fun_induction m.render format cs args generalizing out with
  | case1 args =>
    show (Except.ok out, s) = (Except.ok (out ++ ""), s)
    rw [String.append_empty]
  | case2 cs args ih => rw [render, ih, map_append_bind]
  | case3 cs args ih =>
    rw [render]
    cases hnext : Module.nextArgument format args with
    | error e => exact bind_of_error (ofExcept_eq _)
    | ok next =>
      obtain ⟨v, args⟩ := next
      refine (bind_of_ok (ofExcept_eq _)).trans ?_
      show ((MonadExcept.ofExcept (m.constantText v) : Executing String) >>= _) s =
        ((out ++ ·) <$> (m.constantText v >>= _), s)
      cases m.constantText v with
      | error e => exact bind_of_error (ofExcept_eq _)
      | ok text =>
        rw [bind_of_ok (ofExcept_eq _), ih]
        exact congrArg (·, s) (map_append_bind ..).symm
  | case4 cs args ih =>
    rw [render]
    cases hnext : Module.nextArgument format args with
    | error e => exact bind_of_error (ofExcept_eq _)
    | ok next =>
      obtain ⟨v, args⟩ := next
      refine (bind_of_ok (ofExcept_eq _)).trans ?_
      show ((MonadExcept.ofExcept v.asDouble : Executing Double) >>= _) s =
        ((out ++ ·) <$> (v.asDouble >>= _), s)
      cases v.asDouble with
      | error e => exact bind_of_error (ofExcept_eq _)
      | ok d =>
        rw [bind_of_ok (ofExcept_eq _), ih]
        exact congrArg (·, s) (map_append_bind ..).symm
  -- A percent sign in front of anything else is refused.
  | case5 cs args h₁ h₂ h₃ =>
    rw [render.eq_5]
    · rfl
    all_goals assumption
  | case6 c cs args h₁ h₂ h₃ h₄ ih =>
    rw [render.eq_6, ih, map_append_bind]
    all_goals assumption

/-- The machine of `s` that has also printed `text`, and the number of bytes of `text`. -/
def printed (s : Machine) (text : String) : Value × Machine :=
  (.int (Int32.ofNat text.utf8ByteSize), { s with output := s.output ++ text })

/-- `Executing.printf` does what `Module.printf` does at once. If that fails, nothing is printed. -/
theorem printf_eq (values : List Value) :
    printf m values s = settle s (printed s <$> m.printf values) := by
  cases values with
  | nil => rfl
  | cons format args =>
    rw [printf, Module.printf]
    cases m.constantText format with
    | error e => exact bind_of_error (ofExcept_eq _)
    | ok format =>
      rw [bind_of_ok (ofExcept_eq _)]
      show _ = settle s (printed s <$> m.render format format.toList args)
      -- The text is put together before anything is printed.
      have hrender := render_eq (m := m) (s := s) format format.toList args ""
      cases htext : m.render format format.toList args with
      | error e =>
        rw [htext] at hrender
        exact bind_of_error hrender
      | ok text =>
        have hempty : (("" ++ ·) <$> .ok text : Except RunError String) = .ok text :=
          congrArg Except.ok String.empty_append
        rw [htext, hempty] at hrender
        exact bind_of_ok hrender

/-- `Executing.call` does what `Machine.call` does at once. If that fails, the machine is left as it
    was. -/
theorem call_eq (callee : Nat) (args : List Operand) :
    call m callee args s = settle s (s.call m callee args) := by
  unfold call Machine.call
  cases m.functions[callee]? with
  | none => rfl
  | some f =>
    dsimp only
    -- Only `printf` can be called, as both check first.
    by_cases hf : Machine.isCallable f = true
    · rw [if_pos hf, if_pos hf]
      have hvalues := mapM_eval_eq (s := s) args
      cases heval : args.mapM s.eval with
      | error e =>
        rw [heval] at hvalues
        exact bind_of_error hvalues
      | ok values =>
        rw [heval] at hvalues
        rw [bind_of_ok hvalues, printf_eq]
        show settle s (printed s <$> m.printf values) = settle s (m.printf values >>= _)
        cases m.printf values <;> rfl
    · rw [if_neg hf, if_neg hf]
      rfl

end Executing

namespace Machine

/-- `Machine.call` of `printf` renders the format and prints the text, if there is one. -/
theorem call_eq_render {m : Module} {s : Machine} {callee i : Nat} {f : Function}
    {args : List Operand} {values : List Value} {format : String}
    (hcallee : m.functions[callee]? = some f) (hf : isCallable f = true)
    (hargs : args.mapM s.eval = .ok (.pointer (.global i) :: values))
    (hformat : m.globals[i]?.map (·.bytes) = some format.toByteArray) :
    s.call m callee args = Executing.printed s <$> m.render format format.toList values := by
  rw [call, hcallee]
  dsimp only
  rw [if_pos hf, hargs]
  show (m.constantText (.pointer (.global i)) >>= _) >>= _ = _
  rw [Module.constantText_eq hformat]
  show m.render format format.toList values >>= _ = _
  cases m.render format format.toList values <;> rfl

/-- `Executing.call` of `printf` succeeds iff the format is made of pieces and its arguments begin
    with what they take. It then prints the texts of the pieces, and the result is the number of
    bytes. Otherwise the pieces stop before a percent sign that `Offends`: the call fails with what
    is wrong with that one, and the machine is what it was, so nothing was printed. `s.call` does
    the same at once. -/
theorem call_printf {m : Module} {s : Machine} {callee i : Nat} {f : Function}
    {args : List Operand} {values : List Value} {format : String}
    (hcallee : m.functions[callee]? = some f) (hf : isCallable f = true)
    (hargs : args.mapM s.eval = .ok (.pointer (.global i) :: values))
    (hformat : m.globals[i]?.map (·.bytes) = some format.toByteArray) :
    (∀ result s', Executing.call m callee args s = (.ok result, s') ↔
      ∃ ps vs extra text, format.toList = ps.flatMap Piece.source ∧ values = vs ++ extra ∧
        Prints m ps vs text ∧ result = .int (Int32.ofNat text.utf8ByteSize) ∧
          s' = { s with output := s.output ++ text }) ∧
    (∀ e s', Executing.call m callee args s = (.error e, s') ↔
      s' = s ∧ ∃ ps vs rest text cs, format.toList = ps.flatMap Piece.source ++ '%' :: cs ∧
        values = vs ++ rest ∧ Prints m ps vs text ∧ Offends m format cs rest e) ∧
    (∀ result s', s.call m callee args = .ok (result, s') ↔
      Executing.call m callee args s = (.ok result, s')) ∧
    ∀ e, s.call m callee args = .error e ↔ Executing.call m callee args s = (.error e, s) := by
  -- In place or at once: the two are the same, so what `Module.render` does decides.
  obtain ⟨hok, herror⟩ := eq_of_settled (Executing.call_eq (m := m) (s := s) callee args)
  refine ⟨fun result s' => ?_, fun e s' => ?_, fun result s' => (hok result s').symm, fun e => ?_⟩
  · rw [hok, call_eq_render hcallee hf hargs hformat, map_eq_ok_iff]
    simp only [Module.render_eq_ok_iff, Executing.printed, Prod.mk.injEq]
    constructor
    · rintro ⟨text, ⟨ps, vs, extra, hpieces, hvalues, hps⟩, rfl, rfl⟩
      exact ⟨ps, vs, extra, text, hpieces, hvalues, hps, rfl, rfl⟩
    · rintro ⟨ps, vs, extra, text, hpieces, hvalues, hps, rfl, rfl⟩
      exact ⟨text, ⟨ps, vs, extra, hpieces, hvalues, hps⟩, rfl, rfl⟩
  · rw [herror, call_eq_render hcallee hf hargs hformat, ← Module.render_eq_error_iff]
    cases m.render format format.toList values <;> simp
  · rw [herror]
    simp

/-- A percent sign in a text that is printed starts no conversion, and of two conversions that
    offend the left one decides, though what stands in front of it would be printed. -/
theorem call_printf_sample :
    let m : Module :=
      { name := "m"
        globals := #[⟨0, "%s %%%f".toByteArray⟩, ⟨1, "€%d".toByteArray⟩, ⟨2, "a%d%s".toByteArray⟩]
        functions := #[⟨printfPrototype, none⟩] }
    let s : Machine := { output := "> " }
    Executing.call m 0 [.global 0, .global 1, .double .zero, .i32 1] s =
        (.ok (.int 15), { s with output := "> €%d %0.000000" }) ∧
      Executing.call m 0 [.global 2] s =
        (.error (.badFormat (.unsupportedConversion (some 'd'))), s) := by
  intro m s
  constructor
  · have hargs : [Operand.global 0, .global 1, .double .zero, .i32 1].mapM s.eval =
        .ok [.pointer (.global 0), .pointer (.global 1), .double .zero, .int 1] := rfl
    have hformat : m.globals[0]?.map (·.bytes) = some "%s %%%f".toByteArray := rfl
    have hglobal : m.globals[1]? = some ⟨1, "€%d".toByteArray⟩ := rfl
    have htext : Global.contents ⟨1, "€%d".toByteArray⟩ = "€%d" :=
      Text.decodeLossy_toByteArray "€%d"
    refine ((call_printf rfl (by decide) hargs hformat).1 _ _).mpr ?_
    -- The pieces of the format, the values that they take and one that is left over.
    refine ⟨[.text, .plain ' ' (by decide), .percent, .number],
      [.pointer (.global 1), .double .zero], [.int 1], _, by decide, rfl,
      .cons (.text hglobal) (.cons (.plain ' ' _) (.cons .percent (.cons (.number .zero) .nil))),
        ?_⟩
    rw [htext]
    exact ⟨by decide +kernel, congrArg (fun output => { s with output }) (by decide +kernel)⟩
  · have hargs : [Operand.global 2].mapM s.eval = .ok [.pointer (.global 2)] := rfl
    have hformat : m.globals[2]?.map (·.bytes) = some "a%d%s".toByteArray := rfl
    refine ((call_printf rfl (by decide) hargs hformat).2.1 _ _).mpr ⟨rfl, ?_⟩
    exact ⟨[.plain 'a' (by decide)], [], [], _, ['d', '%', 's'], by decide, rfl,
      .cons (.plain 'a' _) .nil, @Offends.unsupported m _ ['d', '%', 's'] [] (by simp)⟩

end Machine

end Straightline
