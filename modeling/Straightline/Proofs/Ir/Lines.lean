import Straightline.Proofs.Ir.Words

/-!
# Lines of the textual IR

* `IsLine` says that a text has no newline. Numbers, constants, names and bytes are written without
  one, so an instruction takes a single line: `Body.isLine_instructionText`.
* `Module.newlines_text`: the newlines of a text are those that end its lines and those inside of
  them.
-/

namespace Straightline

/-- `IsLine s`: the text has no newline. -/
def IsLine (s : String) : Prop := '\n' ∉ s.toList

instance (s : String) : Decidable (IsLine s) := inferInstanceAs (Decidable ('\n' ∉ s.toList))

/-- `s ++ t` has no newline iff neither has. -/
theorem isLine_append {s t : String} : IsLine (s ++ t) ↔ IsLine s ∧ IsLine t := by
  rw [IsLine, String.toList_append, List.mem_append, not_or]
  rfl

theorem IsLine.append {s t : String} (hs : IsLine s) (ht : IsLine t) : IsLine (s ++ t) :=
  isLine_append.mpr ⟨hs, ht⟩

theorem isLine_ofList {cs : List Char} (h : '\n' ∉ cs) : IsLine (String.ofList cs) := by
  rwa [IsLine, String.toList_ofList]

/-- Texts without newlines have none when they are joined. -/
theorem isLine_intercalate {separator : String} (hsep : IsLine separator) {parts : List String}
    (h : ∀ s ∈ parts, IsLine s) : IsLine (separator.intercalate parts) := by
  induction parts with
  | nil =>
    rw [String.intercalate_nil]
    decide
  | cons s parts ih =>
    have hs := h s (by simp)
    cases parts with
    | nil => rwa [String.intercalate_singleton]
    | cons t parts =>
      rw [String.intercalate_cons_cons]
      exact (hs.append hsep).append (ih fun u hu => h u (by simp [hu]))

/-! ### Numbers, bytes and names -/

/-- A word has no newline. -/
theorem isLine_of_isWord {s : String} (h : IsWord s.toList) : IsLine s := h.notMem (by decide)

theorem isLine_text (n : Nat) : IsLine (Decimal.text n) :=
  isLine_of_isWord (by rw [toList_text]; exact isWord_digits n)

theorem isLine_intText (n : Int) : IsLine (Decimal.intText n) := isLine_of_isWord (isWord_intText n)

theorem isLine_constantText (d : Double) : IsLine (String.ofList d.constantText) :=
  isLine_ofList (d.isWord_constantText.notMem (by decide))

/-- Between quotes, no byte is a newline. -/
theorem isLine_escapeBytes (bytes : ByteArray) : IsLine (escapeBytes bytes) := by
  refine isLine_ofList fun h => ?_
  obtain ⟨b, -, hb⟩ := List.mem_flatMap.mp h
  exact (notMem_escapeByte b).2 hb

/-- A local name is a word or stands between quotes. -/
theorem isLine_localName (name : String) : IsLine (localName name) := by
  unfold localName
  split
  · next h =>
    have hname : IsLine name := fun hn => absurd (isNameChar_of_isBareName h _ hn) (by decide)
    exact .append (by decide) hname
  · exact .append (.append (by decide) (isLine_escapeBytes _)) (by decide)

/-! ### Instructions -/

theorem Ty.isLine_text (ty : Ty) : IsLine ty.text := by
  cases ty <;> decide

/-- The types of parameters have no newline. -/
theorem Prototype.isLine_paramsText (p : Prototype) : IsLine p.paramsText := by
  refine isLine_intercalate (by decide) fun s hs => ?_
  rcases List.mem_append.mp hs with hs | hs
  · obtain ⟨ty, -, rfl⟩ := List.mem_map.mp hs
    exact ty.isLine_text
  · split at hs
    · rw [List.mem_singleton.mp hs]
      decide
    · cases hs

/-- Neither has the text of a callee. -/
theorem Prototype.isLine_calleeText (p : Prototype) : IsLine p.calleeText := by
  unfold calleeText
  split
  · exact .append (.append (.append p.ret.isLine_text (by decide)) p.isLine_paramsText) (by decide)
  · exact p.ret.isLine_text

namespace Body

variable (b : Body) (m : Module)

/-- The text of an operand has no newline, whatever its name is. -/
theorem isLine_operandText (x : Operand) : IsLine (b.operandText m x) := by
  unfold operandText
  cases x with
  | double d => exact isLine_constantText d
  | i32 n => exact isLine_intText _
  | global i =>
    dsimp only
    split
    · exact .append (by decide) (Straightline.isLine_text _)
    · decide
  -- A result without a name has the placeholder.
  | inst i =>
    dsimp only
    split
    · exact isLine_localName _
    · decide

/-- Neither has its text with its type. -/
theorem isLine_typedText (x : Operand) : IsLine (b.typedText m x) :=
  .append (.append (Ty.isLine_text _) (by decide)) (b.isLine_operandText m x)

theorem isLine_alignText (ty : Ty) : IsLine (alignText ty) :=
  .append (by decide) (Straightline.isLine_text _)

/-- The text of an instruction has no newline, if the names of functions have none. -/
theorem isLine_kindText {m : Module} (h : ∀ i p, m.prototype? i = some p → IsLine p.name)
    (kind : Kind) : IsLine (b.kindText m kind) := by
  -- One case per instruction: its text is made of keywords, types and operands.
  cases kind with
  | alloca ty => exact .append (.append (by decide) ty.isLine_text) (isLine_alignText ty)
  | load ty ptr =>
    exact .append (.append (.append (.append (by decide) ty.isLine_text) (by decide))
      (b.isLine_operandText m ptr)) (isLine_alignText ty)
  | store value ptr =>
    exact .append (.append (.append (.append (by decide) (b.isLine_typedText m value)) (by decide))
      (b.isLine_operandText m ptr)) (isLine_alignText _)
  | binary op lhs rhs =>
    have hop : IsLine op.opcode := by cases op <;> decide
    exact .append
      (.append (.append (.append hop (by decide)) (b.isLine_operandText m lhs)) (by decide))
      (b.isLine_operandText m rhs)
  | compare condition lhs rhs =>
    have hcondition : IsLine condition.keyword := by cases condition <;> decide
    exact .append (.append (.append (.append (.append (by decide) hcondition) (by decide))
      (b.isLine_operandText m lhs)) (by decide)) (b.isLine_operandText m rhs)
  | widen value => exact .append (.append (by decide) (b.isLine_typedText m value)) (by decide)
  | call callee args =>
    have hargs : IsLine (", ".intercalate (args.map (b.typedText m))) := by
      refine isLine_intercalate (by decide) fun s hs => ?_
      obtain ⟨x, -, rfl⟩ := List.mem_map.mp hs
      exact b.isLine_typedText m x
    unfold kindText
    refine .append (.append (.append (.append (by decide) ?_) (by decide)) hargs) (by decide)
    split
    · next p hp => exact .append (.append p.isLine_calleeText (by decide)) (h callee p hp)
    · decide
  | ret value =>
    cases value with
    | none =>
      rw [kindText]
      decide
    | some value => exact .append (by decide) (b.isLine_typedText m value)

/-- An instruction takes a single line. -/
theorem isLine_instructionText {m : Module} (h : ∀ i p, m.prototype? i = some p → IsLine p.name)
    (i : Instruction) : IsLine (b.instructionText m i) := by
  unfold instructionText
  refine .append (.append (by decide) ?_) (b.isLine_kindText h i.kind)
  split
  · exact .append (isLine_localName _) (by decide)
  · decide

end Body

/-! ### Texts -/

/-- How many newlines a text has. -/
def newlines (s : String) : Nat := s.toList.count '\n'

/-- The newlines of `s ++ t` are those of both. -/
theorem newlines_append (s t : String) : newlines (s ++ t) = newlines s + newlines t := by
  rw [newlines, String.toList_append, List.count_append]
  rfl

/-- How many newlines lines have in a text, where each of them ends in one. -/
def lineBreaks (lines : List String) : Nat := lines.foldr (fun line n => newlines line + 1 + n) 0

@[simp] theorem lineBreaks_cons (line : String) (lines : List String) :
    lineBreaks (line :: lines) = newlines line + 1 + lineBreaks lines := rfl

@[simp] theorem lineBreaks_append (lines rest : List String) :
    lineBreaks (lines ++ rest) = lineBreaks lines + lineBreaks rest := by
  induction lines with
  | nil => simp [lineBreaks]
  | cons line lines ih =>
    rw [List.cons_append, lineBreaks_cons, lineBreaks_cons, ih]
    omega

/-- Lines without newlines in them only have those at their ends. -/
theorem lineBreaks_eq_length {lines : List String} (h : ∀ line ∈ lines, IsLine line) :
    lineBreaks lines = lines.length := by
  induction lines with
  | nil => rfl
  | cons line lines ih =>
    have hline : newlines line = 0 := List.count_eq_zero.mpr (h line (by simp))
    rw [lineBreaks_cons, hline, ih fun l hl => h l (by simp [hl]), List.length_cons]
    omega

/-- Every line has the newline at its end. -/
theorem length_le_lineBreaks (lines : List String) : lines.length ≤ lineBreaks lines := by
  induction lines with
  | nil => exact Nat.le_refl 0
  | cons line lines ih =>
    rw [lineBreaks_cons, List.length_cons]
    omega

/-- If there are no more newlines than lines, no line has one in it. -/
theorem isLine_of_lineBreaks_le {lines : List String} (h : lineBreaks lines ≤ lines.length) :
    ∀ line ∈ lines, IsLine line := by
  induction lines with
  | nil => simp
  | cons line lines ih =>
    have hle := length_le_lineBreaks lines
    rw [lineBreaks_cons, List.length_cons] at h
    have hline : newlines line = 0 := by omega
    exact List.forall_mem_cons.mpr ⟨List.count_eq_zero.mp hline, ih (by omega)⟩

/-- The newlines of lines in a row are those that end them and those inside of them. -/
theorem newlines_join (lines : List String) :
    newlines (String.join (lines.map (· ++ "\n"))) = lineBreaks lines := by
  induction lines with
  | nil => rfl
  | cons line lines ih =>
    rw [List.map_cons, String.join_cons, newlines_append, newlines_append, ih]
    rfl

/-- The newlines of a text are those that end its lines and those inside of them. -/
theorem Module.newlines_text (m : Module) : newlines m.text = lineBreaks m.lines :=
  newlines_join m.lines

end Straightline
