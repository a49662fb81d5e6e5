import Straightline.Proofs.Ir.Lines

/-!
# What can be read back from a text

* `lines_inj`: a text has one list of lines.
* `Global.text_injective`: different constants have different lines.
* `Body.typedText_append_inj`: where an operand stands behind its type, both can be seen.
* `Opcode.text_injective` and `Body.exists_kindText`: what an instruction does starts with a word of
  its own.
-/

namespace Straightline

/-! ### Lines -/

/-- Lines without newlines can be told from a text in which each of them ends in one. -/
theorem lines_inj {lines lines' : List String} (hl : ∀ line ∈ lines, IsLine line)
    (hl' : ∀ line ∈ lines', IsLine line)
    (h : String.join (lines.map (· ++ "\n")) = String.join (lines'.map (· ++ "\n"))) :
    lines = lines' := by
  have hcons : ∀ (line : String) (lines : List String),
      (String.join ((line :: lines).map (· ++ "\n"))).toList =
        line.toList ++ '\n' :: (String.join (lines.map (· ++ "\n"))).toList := by
    intro line lines
    rw [List.map_cons, String.join_cons, String.toList_append, String.toList_append,
      List.append_assoc]
    rfl
  replace h := congrArg String.toList h
  -- By induction on the lines: the first newline of each text ends the first line.
  induction lines generalizing lines' with
  | nil =>
    cases lines' with
    | nil => rfl
    | cons line' lines' =>
      rw [hcons] at h
      exact absurd h.symm (by simp)
  | cons line lines ih =>
    cases lines' with
    | nil =>
      rw [hcons] at h
      exact absurd h (by simp)
    | cons line' lines' =>
      rw [hcons, hcons] at h
      obtain ⟨hline, hrest⟩ := append_cons_inj (hl line (by simp)) (hl' line' (by simp)) h
      rw [String.toList_inj.mp hline,
        ih (fun l hmem => hl l (by simp [hmem])) (fun l hmem => hl' l (by simp [hmem])) hrest]

/-- A text that breaks does so whatever follows. -/
theorem Breaks.append {cs : List Char} (h : Breaks cs) (hne : cs ≠ []) (ds : List Char) :
    Breaks (cs ++ ds) := by
  cases cs with
  | nil => exact absurd rfl hne
  | cons c cs => exact h

/-! ### Constants -/

/-- Different constants have different lines. -/
theorem Global.text_injective {g g' : Global} (h : g.text = g'.text) : g = g' := by
  replace h := congrArg String.toList h
  simp only [Global.text, String.toList_append, List.append_assoc, toList_text] at h
  -- The number ends at a blank, the size at another one, and the bytes in front of a fixed end.
  obtain ⟨hnumber, h⟩ := (isWord_digits _).append_inj (isWord_digits _)
    (Breaks.append (by decide) (by decide) _) (Breaks.append (by decide) (by decide) _)
    (List.append_cancel_left h)
  obtain ⟨-, h⟩ := (isWord_digits _).append_inj (isWord_digits _)
    (Breaks.append (by decide) (by decide) _) (Breaks.append (by decide) (by decide) _)
    (List.append_cancel_left h)
  have hbytes := List.append_cancel_right (List.append_cancel_left h)
  cases g
  cases g'
  rw [← toList_text, ← toList_text] at hnumber
  exact congrArg₂ mk (Decimal.text_injective (String.toList_inj.mp hnumber))
    (escapeBytes_injective (String.toList_inj.mp hbytes))

theorem isLine_globalText (g : Global) : IsLine g.text :=
  .append (.append (.append (.append (.append (.append (by decide) (isLine_text _)) (by decide))
    (isLine_text _)) (by decide)) (isLine_escapeBytes _)) (by decide)

/-! ### Operands -/

/-- Different types have different texts. -/
theorem Ty.text_injective {ty ty' : Ty} (h : ty.text = ty'.text) : ty = ty' := by
  cases ty <;> cases ty' <;> simp_all [Ty.text]

namespace Body

variable {b b' : Body} {m m' : Module} {x x' : Operand}

/-- The end of `operandText` can be seen where what follows `Breaks`. -/
theorem operandText_append_inj (hx : b.IsNamed m x) (hx' : b'.IsNamed m' x') {s t : List Char}
    (hs : Breaks s) (ht : Breaks t)
    (h : (b.operandText m x).toList ++ s = (b'.operandText m' x').toList ++ t) :
    b.operandText m x = b'.operandText m' x' ∧ s = t := by
  obtain ⟨hoperand, hrest⟩ :=
    (isOperandText_operandText hx).append_inj (isOperandText_operandText hx') hs ht h
  exact ⟨String.toList_inj.mp hoperand, hrest⟩

/-- The end of `typedText` can be seen too, and the type. -/
theorem typedText_append_inj (hx : b.IsNamed m x) (hx' : b'.IsNamed m' x') {s t : List Char}
    (hs : Breaks s) (ht : Breaks t)
    (h : (b.typedText m x).toList ++ s = (b'.typedText m' x').toList ++ t) :
    b.typeOf x = b'.typeOf x' ∧ b.operandText m x = b'.operandText m' x' ∧ s = t := by
  have hblank : ∀ ty : Ty, ' ' ∉ ty.text.toList := by
    intro ty
    cases ty <;> decide
  simp only [typedText, String.toList_append, List.append_assoc] at h
  obtain ⟨hty, h⟩ := append_cons_inj (hblank _) (hblank _) h
  obtain ⟨hoperand, hrest⟩ := operandText_append_inj hx hx' hs ht h
  exact ⟨Ty.text_injective (String.toList_inj.mp hty), hoperand, hrest⟩

end Body

/-- The sign that the text of an operand starts with, if it is no number. -/
def Operand.sigil? : Operand → Option Char
  | .inst _ => some '%'
  | .global _ => some '@'
  | _ => none

/-- The text of an integer holds digits and a minus sign. -/
theorem ne_of_mem_intText {n : Int} {c : Char} (hc : c ∈ (Decimal.intText n).toList) :
    c ≠ '%' ∧ c ≠ '@' := by
  rw [Decimal.intText, String.toList_append, toList_text, List.mem_append] at hc
  rcases hc with hc | hc
  · split at hc
    · obtain rfl : c = '-' := by simpa using hc
      decide
    · cases hc
  · obtain ⟨k, hk, rfl⟩ := mem_toDigits (by decide) hc
    have hdigit : ∀ k < 10, Nat.digitChar k ≠ '%' ∧ Nat.digitChar k ≠ '@' := by decide
    exact hdigit k hk

/-- `sigil?` can be seen: a number starts with neither sign. -/
theorem Body.sigil?_eq {b : Body} {m : Module} {x : Operand} (hx : b.IsNamed m x) :
    x.sigil? = (b.operandText m x).toList.head?.filter fun c => c = '%' || c = '@' := by
  have hnone : ∀ {cs : List Char}, (∀ ds, cs ≠ '%' :: ds) → (∀ ds, cs ≠ '@' :: ds) →
      none = cs.head?.filter fun c => c = '%' || c = '@' := by
    intro cs hpercent hat
    cases cs with
    | nil => rfl
    | cons c cs =>
      have hc : c ≠ '%' ∧ c ≠ '@' := ⟨fun h => hpercent cs (by rw [h]), fun h => hat cs (by rw [h])⟩
      simp [Option.filter, hc]
  cases x with
  | double d =>
    -- A decimal that starts with a sign cannot be read, and the bits start with a zero.
    have hread : ∀ c ds, Double.read? (c :: ds) = none → c ≠ '0' → d.constantText ≠ c :: ds := by
      intro c ds hnone hzero heq
      rcases d.constantText_eq with h | h
      · rw [heq, hnone] at h
        cases h
      · exact hzero (List.cons.inj (heq.symm.trans h)).1
    rw [operandText, String.toList_ofList]
    exact hnone (fun ds => hread _ ds rfl (by decide)) fun ds => hread _ ds rfl (by decide)
  | i32 n =>
    have hchar : ∀ c ds, (Decimal.intText n.toInt).toList = c :: ds → c ≠ '%' ∧ c ≠ '@' := by
      intro c ds h
      exact ne_of_mem_intText (by rw [h]; exact List.mem_cons_self)
    rw [operandText]
    exact hnone (fun ds h => (hchar _ ds h).1 rfl) fun ds h => (hchar _ ds h).2 rfl
  | global i =>
    obtain ⟨g, hg⟩ := hx
    simp only [operandText, hg, String.toList_append]
    rfl
  | inst i =>
    obtain ⟨inst, name, hi, hname⟩ := hx
    have htext : b.operandText m (.inst i) = localName name := by simp [operandText, hi, hname]
    rw [htext, head?_localName]
    rfl

/-! ### Instructions -/

/-- What an instruction does, without its operands. -/
inductive Opcode where
  | alloca | load | store | arithmetic (op : Double.Arithmetic) | fcmp | uitofp | call | ret
  deriving DecidableEq

namespace Opcode

def text : Opcode → String
  | alloca => "alloca"
  | load => "load"
  | store => "store"
  | arithmetic op => op.opcode
  | fcmp => "fcmp"
  | uitofp => "uitofp"
  | call => "call"
  | ret => "ret"

def all : List Opcode :=
  [alloca, load, store, arithmetic .add, arithmetic .sub, arithmetic .mul,
    arithmetic .div, fcmp, uitofp, call, ret]

/-- `all` lists every opcode. -/
theorem mem_all (o : Opcode) : o ∈ all := by
  rcases o with _ | _ | _ | (_ | _ | _ | _) | _ | _ | _ | _ <;> decide

/-- Different opcodes have different texts. -/
theorem text_injective {o o' : Opcode} (h : o.text = o'.text) : o = o' := by
  have hall : ∀ o ∈ all, ∀ o' ∈ all, o.text = o'.text → o = o' := by decide
  exact hall o o.mem_all o' o'.mem_all h

/-- An opcode starts with a letter, and there is no blank in it. -/
theorem blank_notMem_text (o : Opcode) :
    ' ' ∉ o.text.toList ∧ ∃ c cs, o.text.toList = c :: cs ∧ c ≠ '%' := by
  rcases o with _ | _ | _ | (_ | _ | _ | _) | _ | _ | _ | _ <;>
    exact ⟨by decide, _, _, rfl, by decide⟩

end Opcode

theorem Double.Comparison.keyword_injective {c c' : Double.Comparison}
    (h : c.keyword = c'.keyword) :
    c = c' := by
  cases c <;> cases c' <;> simp_all [keyword]

def Kind.opcode : Kind → Opcode
  | .alloca _ => .alloca
  | .load .. => .load
  | .store .. => .store
  | .binary op .. => .arithmetic op
  | .compare .. => .fcmp
  | .widen _ => .uitofp
  | .call .. => .call
  | .ret _ => .ret

/-- `kindText` starts with the opcode and a blank. -/
theorem Body.exists_kindText (b : Body) (m : Module) (kind : Kind) :
    ∃ rest, (b.kindText m kind).toList = kind.opcode.text.toList ++ ' ' :: rest := by
  have hword : ∀ {word text : List Char} (rest : List Char), text = word ++ [' '] →
      ∃ rest', text ++ rest = word ++ ' ' :: rest' := by
    rintro word text rest rfl
    exact ⟨rest, by rw [List.append_assoc]; rfl⟩
  cases kind with
  | binary op =>
    simp only [kindText, String.toList_append, List.append_assoc]
    exact ⟨_, rfl⟩
  -- The blank stands in the keyword's literal, where `hword` splits it off.
  | ret value =>
    cases value <;>
    · simp only [kindText, Kind.opcode, Opcode.text, String.toList_append]
      exact hword _ rfl
  | alloca | load | store | compare | widen | call =>
    simp only [kindText, Kind.opcode, Opcode.text, String.toList_append, List.append_assoc]
    exact hword _ rfl

end Straightline
