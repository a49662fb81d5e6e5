import Straightline.Proofs.Emission.Listing
import Straightline.Proofs.Emission.WellFormed

/-!
# The placeholder for a missing name

An operand whose instruction has no name would be written as `<unnamed>`. In a program that calls
lead to, every operand that needs a name has one, so this can only stand in a text that the caller
brought in: the name of the module, a constant, or the name of a variable.

* `MentionsOnlyIf` says that a text does not bring the placeholder into a longer one. It holds of
  texts in which the placeholder cannot start, and chains through appending.
* `Draft.mentions_of_text`: where the text of a sound program has the placeholder, the bytes of a
  text from outside have it.
* `Compilation.Reachable.wellFormed_module` says what every compilation that calls lead to looks
  like, and `placeholder_in_text` is a program with the placeholder in its text.
-/

namespace Straightline

open Draft

/-! ### Texts that do not bring it in -/

/-- What stands for an operand without a name. -/
def placeholder : String := "<unnamed>"

/-- `Mentions bytes`: the placeholder is among the bytes. -/
def Mentions (bytes : ByteArray) : Prop :=
  placeholder.toByteArray.data.toList <:+: bytes.data.toList

/-- `MentionsOnlyIf reason s`: if the placeholder stands in `s ++ t`, then it stands in `t`, or
    `reason` holds. -/
def MentionsOnlyIf (reason : Prop) (s : String) : Prop :=
  ∀ t, placeholder.toList <:+: s.toList ++ t → reason ∨ placeholder.toList <:+: t

/-- The placeholder does not stand in `cs ++ t` with a part in `cs` if `cs` has no `<`. -/
theorem infix_of_notMem {cs t : List Char} (hcs : '<' ∉ cs)
    (h : placeholder.toList <:+: cs ++ t) : placeholder.toList <:+: t := by
  induction cs with
  | nil => exact h
  | cons c cs ih =>
    rw [List.cons_append, List.infix_cons_iff] at h
    rcases h with h | h
    · have hhead : '<' = c := (List.cons_prefix_cons.mp h).1
      exact absurd hhead (List.ne_of_not_mem_cons hcs)
    · exact ih (List.not_mem_of_not_mem_cons hcs) h

/-- A pattern at the start of `cs ++ mark :: t` is at the start of `cs` if the mark is not in it. -/
theorem prefix_of_notMem {p : List Char} {mark : Char} (hmark : mark ∉ p) (cs : List Char)
    {t : List Char} (h : p <+: cs ++ mark :: t) : p <+: cs := by
  rcases List.prefix_or_prefix_of_prefix h (List.prefix_append cs (mark :: t)) with hp | hp
  · exact hp
  · obtain ⟨r, rfl⟩ := hp
    cases r with
    | nil => simp
    | cons c r =>
      have hc : c = mark := (List.cons_prefix_cons.mp ((List.prefix_append_right_inj cs).mp h)).1
      exact absurd (by simp [hc]) hmark

/-- A pattern stands on one side of a mark that is not in it. -/
theorem infix_append_cons {p cs t : List Char} {mark : Char} (hmark : mark ∉ p)
    (h : p <:+: cs ++ mark :: t) : p <:+: cs ∨ p <:+: t := by
  induction cs with
  | nil =>
    rcases List.infix_cons_iff.mp h with h | h
    · exact .inl (prefix_of_notMem hmark [] h).isInfix
    · exact .inr h
  | cons c cs ih =>
    rcases List.infix_cons_iff.mp h with h | h
    · exact .inl (prefix_of_notMem hmark (c :: cs) h).isInfix
    · exact (ih h).imp (List.infix_cons ·) id

namespace MentionsOnlyIf

variable {reason : Prop} {s t : String}

/-- Texts in a row have the reason of each. -/
theorem append (hs : MentionsOnlyIf reason s) (ht : MentionsOnlyIf reason t) :
    MentionsOnlyIf reason (s ++ t) := by
  intro u h
  rw [String.toList_append, List.append_assoc] at h
  exact (hs _ h).elim .inl (ht u)

/-- A text without `<` cannot bring the placeholder in. -/
theorem of_notMem (h : '<' ∉ s.toList) : MentionsOnlyIf reason s :=
  fun _ ht => .inr (infix_of_notMem h ht)

/-- A text with a mark behind it, where the placeholder cannot go on, brings it in only as a
    whole. -/
theorem of_mark {mark : Char} {rest : List Char} (ht : t.toList = mark :: rest)
    (hmark : mark ∉ placeholder.toList) (hrest : '<' ∉ rest)
    (h : placeholder.toList <:+: s.toList → reason) : MentionsOnlyIf reason (s ++ t) := by
  intro u hu
  rw [String.toList_append, ht, List.append_assoc, List.cons_append] at hu
  exact (infix_append_cons hmark hu).imp h (infix_of_notMem hrest)

/-- If the placeholder stands in `s`, then `reason` holds. -/
theorem reason_of_mention (h : MentionsOnlyIf reason s) (hs : placeholder.toList <:+: s.toList) :
    reason := by
  rcases h [] (by rwa [List.append_nil]) with h | h
  · exact h
  · exact absurd (List.eq_nil_of_infix_nil h) (by decide)

end MentionsOnlyIf

/-! ### Bytes between quotes -/

/-- Bytes whose escaped text starts that of others come at their start. -/
theorem prefix_of_flatMap_escapeByte {as bs : List UInt8} {r : List Char}
    (h : as.flatMap escapeByte ++ r = bs.flatMap escapeByte) : as <+: bs := by
  induction as generalizing bs with
  | nil => exact List.nil_prefix
  | cons a as ih =>
    cases bs with
    | nil =>
      have hnil : escapeByte a = [] := by simp_all
      exact absurd hnil (escapeByte_ne_nil a)
    | cons b bs =>
      rw [List.flatMap_cons, List.flatMap_cons, List.append_assoc] at h
      -- No escape is the start of another, so the first bytes are the same.
      obtain ⟨rfl, hrest⟩ := escapeByte_append_inj h
      exact List.cons_prefix_cons.mpr ⟨rfl, ih hrest⟩

/-- Bytes whose escaped text has the placeholder have it themselves. -/
theorem mentions_of_escapeBytes {bytes : ByteArray}
    (h : placeholder.toList <:+: (escapeBytes bytes).toList) : Mentions bytes := by
  have hplaceholder : placeholder.toList =
      placeholder.toByteArray.data.toList.flatMap escapeByte := by
    decide +kernel
  rw [escapeBytes, String.toList_ofList] at h
  unfold Mentions
  generalize bytes.data.toList = bs at h ⊢
  induction bs with
  | nil => exact absurd (List.eq_nil_of_infix_nil h) (by decide)
  | cons b bs ih =>
    rw [List.flatMap_cons] at h
    cases hb : isPlainByte b with
    | true =>
      rw [escapeByte_of_plain hb, List.singleton_append] at h
      rcases List.infix_cons_iff.mp h with ⟨r, hr⟩ | h
      · have hstart : placeholder.toByteArray.data.toList.flatMap escapeByte ++ r =
            (b :: bs).flatMap escapeByte := by
          rw [← hplaceholder, hr, List.flatMap_cons, escapeByte_of_plain hb, List.singleton_append]
        exact (prefix_of_flatMap_escapeByte hstart).isInfix
      · exact List.infix_cons (ih h)
    | false =>
      -- The placeholder starts with a plain byte.
      have hnot : '<' ∉ escapeByte b := by
        rw [escapeByte_of_not_plain hb, List.mem_cons, not_or]
        exact ⟨by decide, (isWord_hexDigits 2 b.toNat).notMem (by decide)⟩
      exact List.infix_cons (ih (infix_of_notMem hnot h))

/-- The bytes of a text that has the placeholder have it too. -/
theorem mentions_toByteArray {s : String} (h : placeholder.toList <:+: s.toList) :
    Mentions s.toByteArray := by
  obtain ⟨u, v, huv⟩ := h
  have hs : s = String.ofList u ++ placeholder ++ String.ofList v := by
    apply String.toList_inj.mp
    simp [← huv]
  rw [hs, Mentions, String.toByteArray_append, String.toByteArray_append, ByteArray.data_append,
    ByteArray.data_append, Array.toList_append, Array.toList_append]
  exact ⟨_, _, rfl⟩

/-! ### Programs -/

section

variable {reason : Prop}

open MentionsOnlyIf

/-- `localName name` brings in the bytes of `name` only. -/
theorem mentionsOnlyIf_localName {name : String} (h : Mentions name.toByteArray → reason) :
    MentionsOnlyIf reason (localName name) := by
  cases hbare : isBareName name.toList with
  | true =>
    refine of_notMem ?_
    rw [localName_of_bare hbare, List.mem_cons, not_or]
    exact ⟨by decide, fun hmem => absurd (isNameChar_of_isBareName hbare _ hmem) (by decide)⟩
  | false =>
    rw [localName, hbare, if_neg (by decide), String.append_assoc]
    exact append (of_notMem (by decide))
      (of_mark rfl (by decide) (by decide) fun hs => h (mentions_of_escapeBytes hs))

/-- A word has no `<`. -/
theorem mentionsOnlyIf_of_isWord {s : String} (h : IsWord s.toList) : MentionsOnlyIf reason s :=
  of_notMem (h.notMem (by decide))

/-- Neither has a number. -/
theorem mentionsOnlyIf_text (n : Nat) : MentionsOnlyIf reason (Decimal.text n) :=
  mentionsOnlyIf_of_isWord (by rw [toList_text]; exact isWord_digits n)

theorem Ty.mentionsOnlyIf_text (ty : Ty) : MentionsOnlyIf reason ty.text :=
  of_notMem (by cases ty <;> decide)

namespace Body

variable {b : Body} {m : Module}

/-- An operand that has a name, if it needs one, is not written as the placeholder. -/
theorem operandText_ne_placeholder {x : Operand} (hx : b.IsNamed m x) :
    b.operandText m x ≠ placeholder := by
  intro h
  have htext := isOperandText_operandText hx
  rw [h] at htext
  generalize hcs : placeholder.toList = cs at htext
  cases htext with
  | word hword => exact absurd (hword '<' (by rw [← hcs]; decide)) (by decide)
  | quoted _ =>
    have hhead : placeholder.toList.head? = some '%' := by rw [hcs]; rfl
    exact absurd hhead (by decide)

/-- The text of an operand brings in the name of a result only. -/
theorem mentionsOnlyIf_operandText
    (h : ∀ inst ∈ b.instructions, ∀ name, inst.name = some name →
      Mentions name.toByteArray → reason)
    {x : Operand} (hx : b.IsNamed m x) : MentionsOnlyIf reason (b.operandText m x) := by
  unfold operandText
  cases x with
  | double d =>
    exact mentionsOnlyIf_of_isWord (by rw [String.toList_ofList]; exact d.isWord_constantText)
  | i32 n => exact mentionsOnlyIf_of_isWord (isWord_intText _)
  | global i =>
    obtain ⟨g, hg⟩ := hx
    simp only [hg]
    exact append (of_notMem (by decide)) (mentionsOnlyIf_text g.number)
  | inst i =>
    obtain ⟨inst, name, hi, hname⟩ := hx
    simp only [hi, Option.bind_some, hname]
    exact mentionsOnlyIf_localName (h inst (Array.mem_of_getElem? hi) name hname)

/-- `typedText` mentions the bytes only if the name of an instruction does. -/
theorem mentionsOnlyIf_typedText
    (h : ∀ inst ∈ b.instructions, ∀ name, inst.name = some name →
      Mentions name.toByteArray → reason)
    {x : Operand} (hx : b.IsNamed m x) : MentionsOnlyIf reason (b.typedText m x) :=
  append (append (Ty.mentionsOnlyIf_text _) (of_notMem (by decide)))
  (mentionsOnlyIf_operandText h hx)

theorem mentionsOnlyIf_alignText (ty : Ty) : MentionsOnlyIf reason (alignText ty) :=
  append (of_notMem (by decide)) (mentionsOnlyIf_text _)

/-- The text of an instruction brings in names of results only. -/
theorem mentionsOnlyIf_kindText
    (h : ∀ inst ∈ b.instructions, ∀ name, inst.name = some name →
      Mentions name.toByteArray → reason)
    {kind : Kind} (hx : ∀ x ∈ kind.operands, b.IsNamed m x) {globals : Nat}
    (hfits : b.Fits globals kind)
    (hcall : kind.isCall = true → m.prototype? 1 = some printfPrototype) :
    MentionsOnlyIf reason (b.kindText m kind) := by
  have hplain : ∀ {s : String}, '<' ∉ s.toList → MentionsOnlyIf reason s := fun hs => of_notMem hs
  have hoperand : ∀ {x : Operand}, x ∈ kind.operands → MentionsOnlyIf reason (b.operandText m x) :=
    fun hmem => mentionsOnlyIf_operandText h (hx _ hmem)
  have htyped : ∀ {x : Operand}, x ∈ kind.operands → MentionsOnlyIf reason (b.typedText m x) :=
    fun hmem => mentionsOnlyIf_typedText h (hx _ hmem)
  -- One case per instruction: its text is made of keywords, types and operands.
  cases kind with
  | alloca ty =>
    exact append (append (hplain (by decide)) ty.mentionsOnlyIf_text) (mentionsOnlyIf_alignText ty)
  | load ty ptr =>
    exact append (append (append (append (hplain (by decide)) ty.mentionsOnlyIf_text)
      (hplain (by decide))) (hoperand (by simp [Kind.operands]))) (mentionsOnlyIf_alignText ty)
  | store value ptr =>
    exact append (append (append (append (hplain (by decide)) (htyped (by simp [Kind.operands])))
      (hplain (by decide))) (hoperand (by simp [Kind.operands]))) (mentionsOnlyIf_alignText _)
  | binary op lhs rhs =>
    have hop : '<' ∉ op.opcode.toList := by cases op <;> decide
    exact append (append (append (append (hplain hop) (hplain (by decide)))
      (hoperand (by simp [Kind.operands]))) (hplain (by decide)))
      (hoperand (by simp [Kind.operands]))
  | compare condition lhs rhs =>
    have hkeyword : '<' ∉ condition.keyword.toList := by cases condition <;> decide
    exact append (append (append (append (append (hplain (by decide)) (hplain hkeyword))
      (hplain (by decide))) (hoperand (by simp [Kind.operands]))) (hplain (by decide)))
      (hoperand (by simp [Kind.operands]))
  | widen value =>
    exact append (append (hplain (by decide)) (htyped (by simp [Kind.operands])))
      (hplain (by decide))
  | call callee args =>
    obtain ⟨rfl, k, -, x, rfl⟩ := hfits
    simp only [kindText, hcall rfl, List.map_cons, List.map_nil, String.intercalate_cons_cons,
      String.intercalate_singleton]
    exact append
      (append (append (append (hplain (by decide)) (hplain (by decide))) (hplain (by decide)))
      (append (append (htyped (by simp [Kind.operands])) (hplain (by decide)))
        (htyped (by simp [Kind.operands])))) (hplain (by decide))
  | ret value =>
    obtain rfl : value = some (.i32 0) := hfits
    exact append (hplain (by decide)) (htyped (by simp [Kind.operands]))

end Body

end

/-- The texts of a program that come from outside: its name, its constants, and the names of
    results, most of which are named after variables. -/
def Module.givenTexts (m : Module) (main : Body) : List ByteArray :=
  m.name.toByteArray :: m.globals.toList.map (·.bytes) ++
    (main.instructions.toList.filterMap (·.name)).map (·.toByteArray)

section

variable {reason : Prop}

open MentionsOnlyIf

/-- The line of a constant brings in its bytes only. -/
theorem Global.mentionsOnlyIf_text {g : Global} (h : Mentions g.bytes → reason) :
    MentionsOnlyIf reason g.text := by
  unfold Global.text
  rw [String.append_assoc]
  refine append
    (append (append (append (append (of_notMem (by decide)) (Straightline.mentionsOnlyIf_text _))
    (of_notMem (by decide))) (Straightline.mentionsOnlyIf_text _)) (of_notMem (by decide))) ?_
  exact of_mark rfl (by decide) (by decide) fun hs => h (mentions_of_escapeBytes hs)

/-- The lines that name a module bring in its name only. -/
theorem Module.mentionsOnlyIf_headerLines {m : Module} (h : Mentions m.name.toByteArray → reason) :
    ∀ line ∈ m.headerLines, MentionsOnlyIf reason line := by
  refine List.forall_mem_cons.mpr ⟨?_, List.forall_mem_singleton.mpr ?_⟩
  · rw [String.append_assoc]
    exact append (of_notMem (by decide))
      (of_mark rfl (by decide) (by decide) fun hs => h (mentions_toByteArray hs))
  · rw [String.append_assoc]
    exact append (of_notMem (by decide))
      (of_mark rfl (by decide) (by decide) fun hs => h (mentions_of_escapeBytes hs))

/-- Lines with a newline behind each have the reason of each. -/
theorem mentionsOnlyIf_join {lines : List String} (h : ∀ line ∈ lines, MentionsOnlyIf reason line) :
    MentionsOnlyIf reason (String.join (lines.map (· ++ "\n"))) := by
  induction lines with
  | nil => exact of_notMem (by decide)
  | cons line lines ih =>
    obtain ⟨hline, hlines⟩ := List.forall_mem_cons.mp h
    rw [List.map_cons, String.join_cons]
    exact append (append hline (of_notMem (by decide))) (ih hlines)

end

namespace Draft

variable {d : Draft} {name : String} {reason : Prop}

open MentionsOnlyIf

/-- The line of an instruction brings in names of results only. -/
theorem mentionsOnlyIf_instructionText (hd : d.Regular)
    (h : ∀ inst ∈ d.instructions, ∀ name, inst.name = some name →
      Mentions name.toByteArray → reason)
    {inst : Instruction} (hinst : inst ∈ d.instructions) :
    MentionsOnlyIf reason (d.body.instructionText (d.module name) inst) := by
  obtain ⟨j, hj⟩ := Array.getElem?_of_mem hinst
  have hsound := hd.sound j inst hj
  have hkind :=
    Body.mentionsOnlyIf_kindText h (fun x hx => (hsound.usable x hx).isNamed name) hsound.fits
    fun hcall => hd.prototype? hinst hcall name
  unfold Body.instructionText
  -- Indentation, the name of the result and the text of the kind, one after the other.
  refine append (append (of_notMem (by decide)) ?_) hkind
  split
  · next label hlabel =>
    exact append (mentionsOnlyIf_localName (h inst hinst label hlabel)) (of_notMem (by decide))
  · exact of_notMem (by decide)

/-- A line of a regular program brings in texts from outside only. -/
theorem mentionsOnlyIf_line (hd : d.Regular)
    (h : ∀ bytes ∈ (d.module name).givenTexts d.body, Mentions bytes → reason) :
    ∀ line ∈ (d.module name).lines, MentionsOnlyIf reason line := by
  have hname : Mentions (d.module name).name.toByteArray → reason :=
    h _ (by simp [Module.givenTexts])
  have hconstants : ∀ g ∈ (d.module name).globals, Mentions g.bytes → reason := fun g hg =>
    h g.bytes (by simp only [Module.givenTexts]; grind)
  have hnames : ∀ inst ∈ d.instructions, ∀ label, inst.name = some label →
      Mentions label.toByteArray → reason := fun inst hinst label hlabel =>
    h label.toByteArray (by simp only [Module.givenTexts, instructions_body]; grind)
  intro line hline
  rw [Module.lines, lines_functions, lines_main, List.mem_append, List.mem_append, List.mem_append,
    List.mem_cons, List.mem_append, List.mem_append] at hline
  -- The head, the constants, the lines around the instructions, the instructions, and the
  -- declaration.
  rcases hline with (hline | hline) | (rfl | (hline | hline) | hline) | hline
  · exact Module.mentionsOnlyIf_headerLines hname line hline
  · unfold Module.globalLines at hline
    split at hline
    · cases hline
    · rcases List.mem_cons.mp hline with rfl | hline
      · exact of_notMem (by decide)
      · obtain ⟨g, hg, rfl⟩ := List.mem_map.mp hline
        exact Global.mentionsOnlyIf_text (hconstants g (Array.mem_toList_iff.mp hg))
  · exact of_notMem (by decide)
  · refine of_notMem ?_
    revert line
    decide
  · obtain ⟨inst, hinst, rfl⟩ := List.mem_map.mp hline
    exact mentionsOnlyIf_instructionText hd hnames (Array.mem_toList_iff.mp hinst)
  · refine of_notMem ?_
    rw [List.mem_singleton.mp hline]
    decide
  · refine of_notMem ?_
    unfold declarationLines at hline
    split at hline
    · revert line
      decide
    · cases hline

/-- If the placeholder stands in the text of a regular program, then it stands in one of
    `givenTexts`. -/
theorem mentions_of_text (hd : d.Regular)
    (h : placeholder.toList <:+: (d.module name).text.toList) :
    ∃ bytes ∈ (d.module name).givenTexts d.body, Mentions bytes := by
  have hlines : ∀ line ∈ (d.module name).lines,
      MentionsOnlyIf (∃ bytes ∈ (d.module name).givenTexts d.body, Mentions bytes) line :=
    mentionsOnlyIf_line hd fun bytes hmem hbytes => ⟨bytes, hmem, hbytes⟩
  exact (mentionsOnlyIf_join hlines).reason_of_mention h

end Draft

/-- Every line of a program stands in its text. -/
theorem Module.infix_text {m : Module} {line : String} (h : line ∈ m.lines) :
    line.toList <:+: m.text.toList := by
  unfold Module.text
  generalize m.lines = lines at h ⊢
  induction lines with
  | nil => cases h
  | cons first lines ih =>
    rw [List.map_cons, String.join_cons, String.toList_append]
    rcases List.mem_cons.mp h with rfl | h
    · rw [String.toList_append, List.append_assoc]
      exact (List.prefix_append _ _).isInfix
    · exact (ih h).trans (List.suffix_append _ _).isInfix

/-- `finish` changes the body of `main` only. -/
theorem Draft.module_finish (d : Draft) (name : String) :
    d.finish.module name = (d.module name).setBody 0 d.finish.body := by
  have hprintf : d.finish.declaresPrintf = d.declaresPrintf := rfl
  have hconstants : d.finish.constants = d.constants := rfl
  unfold Draft.module Module.setBody
  rw [hprintf, hconstants]
  cases d.declaresPrintf <;> rfl

/-- Every reachable compilation has a `WellFormed` module. No operand of it is written as the
    placeholder, and where its text has the placeholder, one of `givenTexts` has it. `Emit.finish`
    adds a return of zero behind all other instructions and changes nothing else. -/
theorem Compilation.Reachable.wellFormed_module {options : Options} {c : Compilation}
    {handles : List Operand} (h : Compilation.Reachable options c handles) :
    c.module.WellFormed c.main ∧
      (∀ inst ∈ c.main.instructions, ∀ x ∈ inst.kind.operands, c.main.operandText c.module x ≠
        placeholder) ∧
      (placeholder.toList <:+: c.module.text.toList →
        ∃ bytes ∈ c.module.givenTexts c.main, Mentions bytes) ∧
      ∃ c', Emit.finish c = (.ok (), c') ∧
        c'.module = c.module.setBody 0 c'.main ∧
        c'.main.instructions = c.main.instructions.push ⟨.ret (some (.i32 0)), .void, none⟩ ∧
        c'.main.blocks =
          #[{ label := "entry", instructions := Array.range (c.main.instructions.size + 1) }] ∧
        (placeholder.toList <:+: c'.module.text.toList →
          ∃ bytes ∈ c'.module.givenTexts c'.main, Mentions bytes) := by
  obtain ⟨d, hc, hd, -⟩ := h.exists_built
  obtain ⟨c', hfinish, hmodule⟩ := hc.finish
  -- `finish` is known by its module, whose first function is `main`.
  have hmain : c'.main = d.finish.body := by
    have hfirst : c'.module.functions[0]? = (d.finish.module options.moduleName).functions[0]? := by
      rw [hmodule]
    rw [Compilation.module, Compilation.functions, Draft.module,
      Array.getElem?_append_left (by simp), Array.getElem?_append_left (by simp)] at hfirst
    simpa using hfirst
  rw [hc.module_eq, hc.main]
  refine ⟨hd.wellFormed _, ?_, mentions_of_text hd.regular, c', hfinish, ?_, ?_, ?_, ?_⟩
  · intro inst hinst x hx
    obtain ⟨j, hj⟩ := Array.getElem?_of_mem hinst
    exact Body.operandText_ne_placeholder (((hd.sound j inst hj).usable x hx).isNamed _)
  · rw [hmodule, hmain, d.module_finish]
  · rw [hmain]
    exact d.instructions_push _ _ _
  · rw [hmain]
    simp [Draft.body, Draft.block, Draft.finish]
  · rw [hmodule, hmain]
    exact mentions_of_text hd.regular.finish

/-- A script that fails behind its first statement, between two calls. The second call uses what the
    first handed out. -/
theorem wellFormed_module_sample :
    let c₁ := ((Call.read "entry").emit { options := {} }).2
    let c₂ := (compileInto "x = (entry > 1) print x + (2" c₁).2
    let c₃ := ((Call.printNumber (.inst 2)).emit c₂).2
    (∃ handles, Compilation.Reachable {} c₃ handles) ∧ c₃.module.WellFormed c₃.main ∧
      c₃.main.hasCall = true := by
  intro c₁ c₂ c₃
  have h₁ : Compilation.Reachable {} c₁ _ := .call (Call.read "entry") .new (List.forall_mem_nil _)
  have h₃ := (h₁.script "x = (entry > 1) print x + (2").call (Call.printNumber (.inst 2))
    (List.forall_mem_singleton.mpr (.inr (by decide +kernel)))
  exact ⟨⟨_, h₃⟩, h₃.wellFormed_module.1, by decide +kernel⟩

/-- A text that is printed can be the placeholder itself. -/
theorem placeholder_in_text :
    ∃ m, compile "print \"<unnamed>\"" {} = .ok m ∧ placeholder.toList <:+: m.text.toList := by
  have hlexes : Lexes "print \"<unnamed>\"" [.print, .str "<unnamed>"] := by decide +kernel
  have hparses : ParsesTo "print \"<unnamed>\"" [.printString "<unnamed>"] :=
    ⟨_, hlexes, .last (.printString _)⟩
  have hline : placeholder.toList <:+: (Global.text ⟨0, "<unnamed>".toByteArray⟩).toList := by
    decide +kernel
  refine ⟨_, hparses.compile_eq_ok (by simp), hline.trans (Module.infix_text ?_)⟩
  -- The constant stands behind the two lines of the header and a blank one.
  exact .tail _ (.tail _ (.tail _ (.head _)))

end Straightline
