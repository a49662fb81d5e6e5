import Straightline.Proofs.Script.Reading

/-!
# Where steps are found

A step that can fail is found at the token that it stands for, also where reading ends with an
error.

* `Step.token?` is the token of such a step.
* `TokenStream.operand_standsIn` and `statement_standsIn`: these steps of a statement are found at
  its tokens.
* `TokenStream.program_split`: in front of such a step there are the steps of the statements that
  are complete, and some of the statement that it belongs to.
-/

namespace Straightline

/-- The token that a step which reads a variable or applies an operator stands for. -/
def Step.token? : Step → Option Token
  | read name => some (.ident name)
  | apply symbol => some (.op symbol)
  | _ => none

section

variable {ω : Type} {spell : ω → Symbol}

/-- An expression has neither a statement end nor an assignment in it. -/
theorem Expr.Reads.notMem {k : Nat} {ts : List Token} {e : Expr ω} (h : e.Reads spell k ts) :
    .stop ∉ ts ∧ .assign ∉ ts := by
  induction h with
  | number | name | negative => simp
  | parens _ ih | negate _ _ ih => simpa using ih
  | operand _ ih => exact ih
  | join op _ _ _ ihl ihr => simp [ihl, ihr]

/-- A statement has no statement end in it. -/
theorem Statement.Reads.stop_notMem {ts : List Token} {st : Statement ω} (h : st.Reads spell ts) :
    .stop ∉ ts := by
  cases h with
  | printString => simp
  | printNumber he | assign _ he => simpa using he.notMem.1

end

namespace Parsed

variable {α β : Type}

/-- `q.StandsIn s`: the reads and operators among the steps of `q` are found at their tokens in `s`,
    before the statement ends. -/
def StandsIn (q : Parsed α) (s : TokenStream) : Prop :=
  ∀ p ∈ q.steps, ∀ t, p.step.token? = some t →
    ∃ ts rest, s.Consumes ts (.token t p.span rest) ∧ .stop ∉ ts

variable {q : Parsed α} {next : α → Parsed β} {s : TokenStream}

/-- `pure` finds no steps. -/
theorem standsIn_pure (a : α) : (pure a : Parsed α).StandsIn s := by
  intro p hp
  cases hp

/-- `fail` finds no steps. -/
theorem standsIn_fail (e : SyntaxError) : (fail e : Parsed α).StandsIn s := by
  intro p hp
  cases hp

/-- A step that stands for no token stands anywhere. -/
theorem standsIn_found {step : Step} (h : step.token? = none) (span : Span) :
    (found step span).StandsIn s := by
  intro p hp t ht
  obtain rfl := List.mem_singleton.mp hp
  rw [h] at ht
  cases ht

/-- A step that is found at its token stands there. -/
theorem standsIn_found_here {step : Step} {t : Token} (h : step.token? = some t) (span : Span)
    (rest : TokenStream) :
    (found step span).StandsIn (.token t span rest) := by
  intro p hp t' ht'
  obtain rfl := List.mem_singleton.mp hp
  obtain rfl := Option.some.inj (h.symm.trans ht')
  exact ⟨[], rest, .nil _, List.not_mem_nil⟩

/-- `StandsIn` goes through `>>=`. -/
theorem StandsIn.bind (hq : q.StandsIn s) (hnext : ∀ a, q.outcome = .ok a → (next a).StandsIn s) :
    (q >>= next).StandsIn s := by
  rw [bind_eq_andThen]
  cases ho : q.outcome with
  | error e =>
    rw [andThen_of_error next ho]
    exact hq
  | ok a =>
    rw [andThen_of_ok next ho]
    intro p hp
    rcases List.mem_append.mp hp with hp | hp
    · exact hq p hp
    · exact hnext a ho p hp

/-- What is found behind tokens of a statement is found in that statement. -/
theorem StandsIn.behind {mid : TokenStream} {ts : List Token} (h : q.StandsIn mid)
    (hc : s.Consumes ts mid) (hts : .stop ∉ ts) : q.StandsIn s := by
  intro p hp t ht
  obtain ⟨us, rest, hus, hstop⟩ := h p hp t ht
  exact ⟨ts ++ us, rest, hc.append hus, by simp [hts, hstop]⟩

/-- `enter` finds no steps. -/
theorem standsIn_enter_bind {mid : TokenStream} {next : Unit → Parsed β}
    (h : (next ()).StandsIn s) :
    (mid.enter >>= next).StandsIn s := by
  refine StandsIn.bind ?_ fun _ _ => h
  cases mid with
  | broken e => exact standsIn_fail e
  | token | ended => exact standsIn_pure ()

/-- A step of `q >>= next` is one of `q`, or one of `next` behind all of `q`. -/
theorem mem_steps_or_of_bind {first last : List PlacedStep} {p : PlacedStep}
    (h : (q >>= next).steps = first ++ p :: last) :
    p ∈ q.steps ∨ ∃ a more, q.outcome = .ok a ∧ first = q.steps ++ more ∧
      (next a).steps = more ++ p :: last := by
  rw [bind_eq_andThen] at h
  cases ho : q.outcome with
  | error e =>
    rw [andThen_of_error next ho] at h
    exact .inl (h ▸ List.mem_append_right first List.mem_cons_self)
  | ok a =>
    rw [andThen_of_ok next ho] at h
    -- The step stands on one side of the seam, or is the first one behind it.
    rcases List.append_eq_append_iff.mp h with ⟨more, hfirst, hmore⟩ | ⟨more, hfirst, hmore⟩
    · exact .inr ⟨a, more, rfl, hfirst, hmore⟩
    · cases more with
      | nil => exact .inr ⟨a, [], rfl, by simpa using hfirst.symm, hmore.symm⟩
      | cons x more =>
        obtain ⟨rfl, -⟩ := List.cons.inj hmore
        exact .inl (hfirst ▸ List.mem_append_right first List.mem_cons_self)

/-- The steps behind `enter` are those of what follows. -/
theorem steps_of_enter_bind {mid : TokenStream} {next : Unit → Parsed β}
    {first last : List PlacedStep} {p : PlacedStep}
    (h : (mid.enter >>= next).steps = first ++ p :: last) :
    (next ()).steps = first ++ p :: last := by
  cases mid with
  | broken e => exact absurd h (by simp [TokenStream.enter, bind_eq_andThen, andThen, fail])
  | token | ended => exact h

end Parsed

namespace TokenStream

open Parsed

/-! ### Statements -/

/-- `expect` finds no steps. -/
theorem standsIn_expect (t : Token) (expected : Expectation) (s : TokenStream) {s' : TokenStream} :
    (s.expect t expected).StandsIn s' := by
  unfold expect
  split
  · split
    · exact standsIn_enter_bind (standsIn_pure _)
    · exact standsIn_fail _
  · exact standsIn_fail _

/-- An operand that was read has no statement end in it. -/
theorem exists_consumes_of_operand {k : Nat} {s : TokenStream} {a : s.Shorter}
    (h : (s.operand k).outcome = .ok a) :
    ∃ ts, s.Consumes ts a.1 ∧ .stop ∉ ts := by
  obtain ⟨ts, e, hc, -, he, -⟩ := operand_sound ⟨a.2, rfl, h⟩
  exact ⟨ts, hc, he.notMem.1⟩

/-- What is found behind an operand is found in the same statement. -/
theorem standsIn_operand_bind {β : Type} {k : Nat} {s : TokenStream} {next : s.Shorter → Parsed β}
    (h : (s.operand k).StandsIn s) (hnext : ∀ a, (next a).StandsIn a.1) :
    (s.operand k >>= next).StandsIn s := by
  refine h.bind fun a ha => ?_
  obtain ⟨ts, hc, hts⟩ := exists_consumes_of_operand ha
  exact (hnext a).behind hc hts

/-- The case of `unary`, from shorter streams. -/
theorem unary_standsIn {s : TokenStream}
    (ih : ∀ s' : TokenStream, s'.size < s.size → ∀ k, (s'.operand k).StandsIn s') :
    s.unary.StandsIn s := by
  rw [unary.eq_def]
  split
  · -- A signed number, a negation, a number, a name, parentheses, and anything else.
    exact standsIn_enter_bind ((standsIn_found rfl _).bind fun _ _ => standsIn_pure _)
  · next span rest _ =>
    have hunary := ih rest (by simp) 0
    rw [operand] at hunary
    refine standsIn_enter_bind ?_
    refine (hunary.behind (.cons _ span (.nil rest)) (by simp)).bind fun _ _ => ?_
    exact (standsIn_found rfl _).bind fun _ _ => standsIn_pure _
  · exact standsIn_enter_bind ((standsIn_found rfl _).bind fun _ _ => standsIn_pure _)
  · exact standsIn_enter_bind ((standsIn_found_here rfl _ _).bind fun _ _ => standsIn_pure _)
  · next span rest =>
    refine standsIn_enter_bind (StandsIn.behind ?_ (.cons _ span (.nil rest)) (by simp))
    refine standsIn_operand_bind (ih rest (by simp) 3) fun inner => ?_
    exact (standsIn_expect _ _ _).bind fun _ _ => standsIn_pure _
  · exact standsIn_fail _

/-- The case of `operators`, from shorter streams. -/
theorem operators_standsIn {k : Nat} {s : TokenStream}
    (ih : ∀ s' : TokenStream, s'.size < s.size → ∀ k, (s'.operand k).StandsIn s') :
    (s.operators k).StandsIn s := by
  rcases s.noOperator_or k with hop | ⟨symbol, span, next, rfl, rfl⟩
  · rw [operators.eq_def]
    split
    · next symbol span rest =>
      rw [if_neg (hop symbol span rest rfl)]
      exact standsIn_pure _
    · exact standsIn_pure _
  · -- The operator is found behind its right operand, but stands in front of it.
    have hc : (token (.op symbol) span next).Consumes [.op symbol] next := .cons _ span (.nil next)
    rw [operators, if_pos rfl]
    refine standsIn_enter_bind (((ih next (by simp) _).behind hc (by simp)).bind fun mid hmid => ?_)
    refine (standsIn_found_here rfl span next).bind fun _ _ => ?_
    obtain ⟨ts, hts, hstop⟩ := exists_consumes_of_operand hmid
    have hlt := mid.2
    have hmore := operators_standsIn (k := symbol.level) (s := mid.1) fun s' hs' =>
      ih s' (by rw [size_token]; omega)
    exact (hmore.behind (hc.append hts) (by simp [hstop])).bind fun _ _ => standsIn_pure _
termination_by s.size
decreasing_by
  subst_vars
  rw [size_token]
  omega

/-- `(s.operand k).StandsIn s`. -/
theorem operand_standsIn (k : Nat) (s : TokenStream) : (s.operand k).StandsIn s := by
  -- Inside of a stream of one size, the induction is on the level.
  induction hn : s.size using Nat.strongRecOn generalizing s k with
  | ind n ih =>
    have ih' : ∀ s' : TokenStream, s'.size < s.size → ∀ k, (s'.operand k).StandsIn s' :=
      fun s' hlt k => ih s'.size (hn ▸ hlt) k s' rfl
    induction k with
    | zero =>
      rw [operand]
      exact unary_standsIn ih'
    | succ k ihk =>
      rw [operand]
      refine standsIn_operand_bind ihk fun first => ?_
      have hlt := first.2
      exact (operators_standsIn fun s' hs' => ih' s' (by omega)).bind fun _ _ => standsIn_pure _

/-- `s.statement.StandsIn s`. -/
theorem statement_standsIn (s : TokenStream) : s.statement.StandsIn s := by
  rw [statement.eq_def]
  split
  · exact standsIn_enter_bind ((standsIn_found rfl _).bind fun _ _ => standsIn_pure _)
  · next span rest _ =>
    refine standsIn_enter_bind (StandsIn.behind ?_ (.cons _ span (.nil rest)) (by simp))
    exact (operand_standsIn 3 rest).bind fun _ _ => (standsIn_found rfl _).bind fun _ _ =>
      standsIn_pure _
  · next name span rest =>
    refine standsIn_enter_bind ((standsIn_expect _ _ _).bind fun value hvalue => ?_)
    -- The blamed span of an assignment starts at its name, two tokens in front of the value.
    obtain ⟨value, hlt⟩ := value
    have hassign : _ ∧ value.IsReadable ∧ ∃ span', rest = token .assign span' value :=
      leaves_expect.mp ⟨hlt, rfl, hvalue⟩
    obtain ⟨-, -, span', rfl⟩ := hassign
    refine (StandsIn.behind (operand_standsIn 3 value) (.cons _ span (.cons _ span' (.nil _)))
      (by simp)).bind fun _ _ => ?_
    exact (standsIn_found rfl _).bind fun _ _ => standsIn_pure _
  · exact standsIn_fail _

/-! ### Programs -/

/-- A step of `s.program` that stands for a token is found at it. In front of it there are the steps
    of complete statements, and some of the statement that it is in. -/
theorem program_split {s : TokenStream} {first last : List PlacedStep} {p : PlacedStep} {t : Token}
    (h : s.program.steps = first ++ p :: last) (ht : p.step.token? = some t) :
    ∃ complete current script more rest, s.Consumes (complete ++ current) (token t p.span rest) ∧
      Script.Reads id complete script ∧ .stop ∉ current ∧
      first.map (·.step) = Script.steps script ++ more := by
  have hprogram := h
  rw [program.eq_def] at hprogram
  split at hprogram
  · exact absurd hprogram (by simp)
  · next span rest =>
    obtain ⟨complete, current, script, more, rest', hc, hscript, hstop, hsteps⟩ :=
      program_split (steps_of_enter_bind hprogram) ht
    exact ⟨.stop :: complete, current, script, more, rest', .cons _ span hc, .stop hscript,
      hstop, hsteps⟩
  · -- A statement is read, and the step is one of it or of the program behind it.
    next hended hstop =>
    rw [program_eq_statement hended hstop] at h
    rcases mem_steps_or_of_bind h with hmem | ⟨⟨mid, hlt⟩, later, hmid, rfl, hlater⟩
    · obtain ⟨current, rest, hc, hstop⟩ := statement_standsIn s p hmem t ht
      exact ⟨[], current, [], first.map (·.step), rest, hc, .nil, hstop, rfl⟩
    · replace hlater : mid.afterStatement.steps = later ++ p :: last := hlater
      obtain ⟨ts, st, hts, hst, hsteps⟩ :=
        statement_sound (show s.statement.Leaves _ mid from ⟨hlt, rfl, hmid⟩)
      unfold afterStatement at hlater
      split at hlater
      · exact absurd hlater (by simp)
      · next span rest =>
        obtain ⟨complete, current, script, more, rest', hc, hscript, hstop, hmore⟩ :=
          program_split (steps_of_enter_bind hlater) ht
        refine ⟨ts ++ .stop :: complete, current, st :: script, more, rest', ?_,
          .cons hst hscript, hstop, ?_⟩
        · rw [List.append_assoc]
          exact hts.append (.cons _ span hc)
        · rw [List.map_append, hsteps, hmore, Script.steps_cons, List.append_assoc]
      · exact absurd hlater (by simp [fail])
termination_by s.size
decreasing_by
  · subst_vars
    simp
  · subst_vars
    rw [size_token] at hlt
    omega

end TokenStream

end Straightline
