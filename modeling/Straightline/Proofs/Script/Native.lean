import Mathlib.Data.List.TakeWhile
import Straightline.Proofs.Script.Policies
import Straightline.Proofs.Script.Quotes
import Straightline.Proofs.Script.Tiling

/-!
# String constants as C reads them

When a module is compiled to machine code, `%s` reads a constant up to its first NUL. When a module
is run here, a constant is read as a whole.

* `Module.native` is a module whose constants end where C stops to read them, so its runs are native
  runs.
* `Script.native_program`: the program of a script, so read, is the program of the script whose
  string literals are cut in the same way.
* `ParsesTo.nul_mem`: a NUL in a literal comes from a NUL in the source, since no escape stands for
  one.
* `native_run_iff`: both runs print the same iff no literal that is printed has a NUL in it.
-/

namespace Straightline

open Draft

/-! ### Texts and their bytes -/

namespace Text

/-- A text up to its first NUL. -/
def beforeNul (text : String) : String := String.ofList (text.toList.takeWhile (· ≠ '\x00'))

/-- What C reads of a constant. In memory a NUL follows the bytes, so reading always ends. -/
def cBytes (bytes : ByteArray) : ByteArray := (bytes.data.toList.takeWhile (· ≠ 0)).toByteArray

/-- Only the character NUL has the byte zero in its encoding. -/
theorem zero_mem_utf8EncodeChar {c : Char} : 0 ∈ String.utf8EncodeChar c ↔ c = '\x00' := by
  constructor
  · intro h
    -- The bytes of longer encodings all have their highest bit set.
    have hlarge : ∀ n, 0x80 ≤ n → n < 0x100 → (0 : UInt8) ≠ UInt8.ofNat n := by
      intro n hle hlt hn
      have hzero := congrArg UInt8.toNat hn
      rw [UInt8.toNat_ofNat_of_lt' (by simpa using hlt), UInt8.toNat_zero] at hzero
      omega
    unfold String.utf8EncodeChar at h
    dsimp only at h
    split at h
    · next hsmall =>
      have hsize : c.val.toNat < UInt8.size := Nat.lt_of_le_of_lt hsmall (by decide)
      have hzero := congrArg UInt8.toNat (List.mem_singleton.mp h)
      rw [UInt8.toNat_ofNat_of_lt' hsize, UInt8.toNat_zero] at hzero
      exact Char.ext (UInt32.toNat_inj.mp hzero.symm)
    · exfalso
      split at h
      · rcases List.mem_pair.mp h with h | h <;> exact hlarge _ (by omega) (by omega) h
      · split at h <;> simp only [List.mem_cons, List.not_mem_nil, or_false] at h
        · rcases h with h | h | h <;> exact hlarge _ (by omega) (by omega) h
        · rcases h with h | h | h | h <;> exact hlarge _ (by omega) (by omega) h
  · rintro rfl
    decide

/-- The bytes before the first zero are those of the characters before the first NUL. -/
theorem takeWhile_flatMap_utf8EncodeChar (cs : List Char) :
    (cs.flatMap String.utf8EncodeChar).takeWhile (· ≠ 0) =
      (cs.takeWhile (· ≠ '\x00')).flatMap String.utf8EncodeChar := by
  induction cs with
  | nil => rfl
  | cons c cs ih =>
    rw [List.flatMap_cons]
    by_cases hc : c = '\x00'
    · subst hc
      rfl
    · -- A zero byte stands in the encoding of the zero character alone.
      have hbytes : ∀ b ∈ String.utf8EncodeChar c, decide (b ≠ 0) = true := by
        intro b hb
        rw [decide_eq_true_iff]
        rintro rfl
        exact hc (zero_mem_utf8EncodeChar.mp hb)
      rw [List.takeWhile_append_of_pos hbytes, ih, List.takeWhile_cons_of_pos (by simpa using hc),
        List.flatMap_cons]

/-- `cBytes` of the bytes of a text are the bytes of `beforeNul text`. -/
theorem cBytes_toByteArray (text : String) :
    cBytes text.toByteArray = (beforeNul text).toByteArray := by
  have hbytes : text.toByteArray = (text.toList.flatMap String.utf8EncodeChar).toByteArray :=
    String.utf8Encode_toList.symm
  rw [cBytes, hbytes, List.toList_data_toByteArray, takeWhile_flatMap_utf8EncodeChar, beforeNul,
    String.toByteArray_ofList]
  rfl

/-- `beforeNul text` is no longer than the text. -/
theorem length_beforeNul_le (text : String) : (beforeNul text).length ≤ text.length := by
  rw [beforeNul, String.length_ofList, ← String.length_toList]
  exact (List.takeWhile_prefix _).length_le

/-- `beforeNul text = text` iff there is no NUL in the text. -/
theorem beforeNul_eq_self_iff {text : String} : beforeNul text = text ↔ '\x00' ∉ text.toList := by
  rw [beforeNul, ← String.toList_inj, String.toList_ofList, List.takeWhile_eq_self_iff]
  constructor
  · intro h hnul
    exact absurd (h _ hnul) (by decide)
  · intro h c hc
    rw [decide_eq_true_iff]
    rintro rfl
    exact h hc

/-- With a NUL in it, `beforeNul text` is shorter than the text. -/
theorem length_beforeNul_lt {text : String} (h : '\x00' ∈ text.toList) :
    (beforeNul text).length < text.length := by
  refine Nat.lt_of_le_of_ne (length_beforeNul_le text) fun heq => ?_
  rw [beforeNul, String.length_ofList, ← String.length_toList] at heq
  have hwhole := (List.takeWhile_prefix (p := fun c : Char => decide (c ≠ '\x00'))).eq_of_length heq
  exact beforeNul_eq_self_iff.mp (by rw [beforeNul, hwhole, String.ofList_toList]) h

end Text

/-! ### Modules and drafts -/

/-- The module with constants that end where C stops to read them. -/
def Module.native (m : Module) : Module :=
  { m with globals := m.globals.map fun g => { g with bytes := Text.cBytes g.bytes } }

/-- `m.native` has the constant `beforeNul text` where `m` has `text`. -/
theorem Module.constantText_native {m : Module} {i : Nat} {text : String}
    (h : m.globals[i]?.map (·.bytes) = some text.toByteArray) :
    m.native.constantText (.pointer (.global i)) = .ok (Text.beforeNul text) := by
  obtain ⟨g, hg, hbytes⟩ := Option.map_eq_some_iff.mp h
  refine constantText_eq ?_
  show (m.globals.map _)[i]?.map _ = _
  rw [Array.getElem?_map, hg, Option.map_some, Option.map_some, hbytes, Text.cBytes_toByteArray]

namespace Draft

/-- The draft with constants that end where C stops to read them. -/
def native (d : Draft) : Draft := { d with constants := d.constants.map Text.cBytes }

/-- The empty draft has no constants. -/
theorem native_empty : native {} = {} := by
  simp [native]

section

variable (d : Draft)

/-- `native` goes through `push`. -/
theorem native_push (kind : Kind) (ty : Ty) (hint : Option String) :
    (d.push kind ty hint).native = d.native.push kind ty hint := by
  cases hint <;> rfl

/-- `native` goes through `declare`. -/
theorem native_declare (name : String) : (d.declare name).native = d.native.declare name := by
  cases hv : d.lookup? name with
  | some v =>
    have hv' : d.native.lookup? name = some v := hv
    rw [declare_of_lookup? hv, declare_of_lookup? hv']
  | none =>
    have hv' : d.native.lookup? name = none := hv
    rw [declare_of_new hv, declare_of_new hv']
    rfl

/-- `native` goes through `store`. -/
theorem native_store (name : String) (value : Operand) :
    (d.store name value).native = d.native.store name value := rfl

/-- `native` goes through `asDouble`. -/
theorem native_asDouble (x : Operand) :
    d.native.asDouble x = ((d.asDouble x).1, (d.asDouble x).2.native) := by
  by_cases hx : d.body.typeOf x = .i1
  · have hx' : d.native.body.typeOf x = .i1 := hx
    rw [asDouble_of_i1 hx, asDouble_of_i1 hx', native_push]
    rfl
  · have hx' : d.native.body.typeOf x ≠ .i1 := hx
    rw [asDouble_of_ne hx, asDouble_of_ne hx']

/-- `native` goes through `prepare`. -/
theorem native_prepare (policy : ReadPolicy) (name : String) :
    (d.prepare policy name).native = d.native.prepare policy name := by
  by_cases h : policy = .zeroInit ∧ d.isWritten name = false
  · have h' : policy = .zeroInit ∧ d.native.isWritten name = false := h
    rw [prepare, prepare, if_pos h, if_pos h', native_store]
  · have h' : ¬ (policy = .zeroInit ∧ d.native.isWritten name = false) := h
    rw [prepare, prepare, if_neg h, if_neg h']

/-- `native` goes through `read`. -/
theorem native_read (policy : ReadPolicy) (name : String) :
    d.native.read policy name = ((d.read policy name).1, (d.read policy name).2.native) := by
  rw [read, read, ← native_declare, ← native_prepare, native_push]
  rfl

/-- `native` goes through `write`. -/
theorem native_write (name : String) (value : Operand) :
    (d.write name value).native = d.native.write name value := by
  rw [write, write, ← native_declare, native_asDouble]
  rfl

/-- `native` goes through `apply`. -/
theorem native_apply (op : Operator) (x y : Operand) :
    d.native.apply op x y = ((d.apply op x y).1, (d.apply op x y).2.native) := by
  rw [apply_eq, apply_eq, native_asDouble, native_asDouble, native_push]
  rfl

/-- `native` goes through `constant`, and cuts the text. -/
theorem native_constant (text : String) :
    (d.constant text).native = d.native.constant (Text.beforeNul text) := by
  simp only [native, constant, Array.map_push, Text.cBytes_toByteArray]

/-- `native` goes through `printf` if the format has no NUL. -/
theorem native_printf {format : String} (hformat : Text.beforeNul format = format)
    (value : Operand) :
    (d.printf format value).native = d.native.printf format value := by
  have hconstant := native_constant d format
  have hsize : d.native.constants.size = d.constants.size := Array.size_map
  rw [hformat] at hconstant
  rw [printf, printf, native_push, hsize, ← hconstant]
  rfl

/-- `native` goes through `printNumber`. -/
theorem native_printNumber (value : Operand) :
    (d.printNumber value).native = d.native.printNumber value := by
  rw [printNumber, printNumber, native_asDouble]
  exact native_printf _ (by decide) _

/-- `native` goes through `printString`, and cuts the text. -/
theorem native_printString (text : String) :
    (d.printString text).native = d.native.printString (Text.beforeNul text) := by
  have hsize : d.native.constants.size = d.constants.size := Array.size_map
  rw [printString, printString, native_printf _ (by decide), native_constant, hsize]

/-- `native` goes through `module`. -/
theorem native_module (name : String) : (d.module name).native = d.native.module name := by
  have hglobals : (d.constants.mapIdx Global.mk).map
      (fun g => { g with bytes := Text.cBytes g.bytes }) =
      (d.constants.map Text.cBytes).mapIdx Global.mk := by
    apply Array.ext_getElem?
    intro i
    rw [Array.getElem?_map, Array.getElem?_mapIdx, Array.getElem?_mapIdx, Array.getElem?_map]
    cases d.constants[i]? <;> rfl
  exact congrArg (fun globals => { d.module name with globals }) hglobals

end

end Draft

/-! ### Scripts -/

section

variable {ω : Type}

/-- The text that a statement prints as it is. -/
def Statement.text? : Statement ω → Option String
  | printString text => some text
  | _ => none

/-- The texts that a script prints as they are. -/
def Script.texts (script : Script ω) : List String := script.filterMap Statement.text?

/-- The statement with its text cut at a NUL. -/
def Statement.native : Statement ω → Statement ω
  | printString text => printString (Text.beforeNul text)
  | s => s

/-- The script with its texts cut at a NUL. -/
def Script.native (script : Script ω) : Script ω := script.map Statement.native

/-- `script.native = script` if no text has a NUL. -/
theorem Script.native_eq_self {script : Script ω}
    (h : ∀ text ∈ script.texts, '\x00' ∉ text.toList) :
    script.native = script := by
  refine (List.map_congr_left fun s hs => ?_).trans (List.map_id script)
  cases s with
  | printString text =>
    have htext : text ∈ Script.texts script := List.mem_filterMap.mpr ⟨_, hs, rfl⟩
    exact congrArg Statement.printString (Text.beforeNul_eq_self_iff.mpr (h text htext))
  | _ => rfl

end

/-- `e.lower` goes through `native`: there are no texts in an expression. -/
theorem Expr.native_lower (policy : ReadPolicy) (e : Expr Operator) (d : Draft) :
    e.lower policy d.native = ((e.lower policy d).1, (e.lower policy d).2.native) := by
  induction e generalizing d with
  | literal value => rfl
  | var name => exact native_read d policy name
  | negate operand ih => rw [lower_negate, lower_negate, ih, native_apply]
  | binary op lhs rhs ihl ihr => rw [lower_binary, lower_binary, ihl, ihr, native_apply]

/-- `s.native` is lowered to what `s` is, as C reads it. -/
theorem Statement.native_lower (policy : ReadPolicy) (s : Statement Operator) (d : Draft) :
    (s.lower policy d).native = s.native.lower policy d.native := by
  cases s with
  | printString text => exact native_printString d text
  | printNumber value =>
    show _ = (printNumber value).lower policy d.native
    rw [Statement.lower, Statement.lower, value.native_lower]
    exact native_printNumber _ _
  | assign name value =>
    show _ = (assign name value).lower policy d.native
    rw [Statement.lower, Statement.lower, value.native_lower]
    exact native_write _ _ _

/-- `script.native` is lowered to what `script` is, as C reads it. -/
theorem Script.native_lower (policy : ReadPolicy) (script : Script Operator) (d : Draft) :
    (script.lower policy d).native = script.native.lower policy d.native := by
  induction script generalizing d with
  | nil => rfl
  | cons s script ih =>
    show (Script.lower policy script (s.lower policy d)).native =
      (Script.native script).lower policy (s.native.lower policy d.native)
    rw [ih, s.native_lower]

/-- The program of `script`, as C reads it, is the program of `script.native`. -/
theorem Script.native_program (policy : ReadPolicy) (script : Script Operator) (name : String) :
    ((script.lower policy {}).finish.module name).native =
      (script.native.lower policy {}).finish.module name := by
  have hfinish : (script.lower policy {}).finish.native =
      (script.native.lower policy {}).finish := by
    rw [finish, finish, native_push, script.native_lower, native_empty]
  rw [native_module, hfinish]

/-! ### What is printed -/

/-- What a statement prints, given the values of the variables. -/
def Statement.printed (values : String → Double) : Statement Operator → String
  | printString text => text ++ "\n"
  | printNumber value => (value.eval values).toFixed 6 ++ "\n"
  | assign .. => ""

/-- `s.eval` adds `s.printed` to the output. -/
theorem Statement.output_eval (s : Statement Operator) (p : ScriptState) :
    (s.eval p).output = p.output ++ s.printed p.values := by
  cases s with
  | assign name value => exact String.append_empty.symm
  | _ => rfl

/-- `s.native.eval` gives the variables the values that `s.eval` gives them. -/
theorem Statement.values_native (s : Statement Operator) {p p' : ScriptState}
    (h : p'.values = p.values) :
    (s.native.eval p').values = (s.eval p).values := by
  cases s with
  | assign name value =>
    show (fun other => if other = name then value.eval p'.values else p'.values other) = _
    rw [h]
    rfl
  | _ => exact h

/-- `s.native` prints no more than `s`. -/
theorem Statement.length_printed_native_le (s : Statement Operator) (values : String → Double) :
    (s.native.printed values).length ≤ (s.printed values).length := by
  cases s with
  | printString text =>
    have hle := Text.length_beforeNul_le text
    simpa [Statement.native, Statement.printed] using hle
  | _ => exact Nat.le_refl _

/-- `s.native` prints less than `s` if the text of `s` has a NUL. -/
theorem Statement.length_printed_native_lt {s : Statement Operator} {text : String}
    (h : s.text? = some text) (hnul : '\x00' ∈ text.toList) (values : String → Double) :
    (s.native.printed values).length < (s.printed values).length := by
  cases s with
  | printString text' =>
    obtain rfl := Option.some.inj h
    have hlt := Text.length_beforeNul_lt hnul
    simpa [Statement.native, Statement.printed] using hlt
  | _ => cases h

/-- With a NUL in some text, `script.native` prints less than `script`, whatever is printed behind
    it. -/
theorem Script.length_output_native_lt (script : Script Operator) {p p' : ScriptState}
    (hvalues : p'.values = p.values) (hle : p'.output.length ≤ p.output.length)
    (h : p'.output.length < p.output.length ∨ ∃ text ∈ script.texts, '\x00' ∈ text.toList) :
    (script.native.eval p').output.length < (script.eval p).output.length := by
  -- By induction on the script: once the output is shorter it stays so, since no statement of
  -- `script.native` prints more.
  induction script generalizing p p' with
  | nil =>
    refine h.resolve_right ?_
    rintro ⟨text, htext, -⟩
    cases htext
  | cons s script ih =>
    have hprinted := s.length_printed_native_le p.values
    have hlength : (s.eval p).output.length = p.output.length + (s.printed p.values).length := by
      rw [s.output_eval, String.length_append]
    have hlength' : (s.native.eval p').output.length =
        p'.output.length + (s.native.printed p.values).length := by
      rw [s.native.output_eval, String.length_append, hvalues]
    have hrest : (s.native.eval p').output.length < (s.eval p).output.length ∨
        ∃ text ∈ Script.texts script, '\x00' ∈ text.toList := by
      rcases h with hlt | ⟨text, hmem, hnul⟩
      · exact .inl (by omega)
      · obtain ⟨t, ht, htext⟩ := List.mem_filterMap.mp hmem
        rcases List.mem_cons.mp ht with rfl | ht
        · have hlt := Statement.length_printed_native_lt htext hnul p.values
          exact .inl (by omega)
        · exact .inr ⟨text, List.mem_filterMap.mpr ⟨t, ht, htext⟩, hnul⟩
    show (Script.eval (Script.native script) (s.native.eval p')).output.length <
      (Script.eval script (s.eval p)).output.length
    exact ih (s.values_native hvalues) (by omega) hrest

/-- `script.native` prints what `script` prints iff no text has a NUL. -/
theorem Script.output_native_eq_iff (script : Script Operator) :
    (script.native.eval {}).output = (script.eval {}).output ↔
      ∀ text ∈ script.texts, '\x00' ∉ text.toList := by
  constructor
  · intro heq text htext hnul
    have hlt : (script.native.eval {}).output.length < (script.eval {}).output.length :=
      script.length_output_native_lt rfl (Nat.le_refl _) (.inr ⟨text, htext, hnul⟩)
    rw [heq] at hlt
    exact Nat.lt_irrefl _ hlt
  · intro h
    rw [Script.native_eq_self h]

/-! ### Where a NUL comes from -/

/-- No escape stands for NUL. -/
theorem nul_mem_of_unescape {c : Char} (h : '\x00' ∈ unescape c) : c = '\x00' := by
  unfold unescape at h
  split at h <;> simp at h
  exact h.symm

/-- A NUL in what the body of a literal stands for is in the body as it is. -/
theorem StandsFor.nul_mem {body value : List Char} (h : StandsFor body value)
    (hnul : '\x00' ∈ value) :
    '\x00' ∈ body := by
  induction h with
  | nil => cases hnul
  | plain _ _ _ _ ih =>
    rcases List.mem_cons.mp hnul with hnul | hnul
    · exact List.mem_cons.mpr (.inl hnul)
    · exact List.mem_cons_of_mem _ (ih hnul)
  -- No escape stands for the zero character, so it is written as it is.
  | escape c _ ih =>
    rcases List.mem_append.mp hnul with hnul | hnul
    · simp [nul_mem_of_unescape hnul]
    · simp [ih hnul]

/-- A NUL in a string token is in the source. -/
theorem nul_mem_of_lexemesFrom {offset : Nat} {cs : List Char} {l : Lexeme}
    (hl : l ∈ lexemesFrom offset cs) {text : String} (htext : l.outcome = .ok (.str text))
    (hnul : '\x00' ∈ text.toList) :
    '\x00' ∈ cs := by
  obtain ⟨before, c, after, rfl, rfl⟩ := exists_scan_of_mem hl
  obtain ⟨-, body, rest, rfl, hbody⟩ := exists_standsFor_of_str htext
  have hmem : '\x00' ∈ body := hbody.nul_mem hnul
  simp [hmem]

/-- The text that a statement prints as it is comes from a string token. -/
theorem Statement.Reads.str_mem {ω : Type} {spell : ω → Symbol} {ts : List Token} {s : Statement ω}
    (h : s.Reads spell ts) {text : String} (htext : s.text? = some text) : .str text ∈ ts := by
  cases h with
  | printString text' =>
    obtain rfl := Option.some.inj htext
    simp
  | printNumber | assign => cases htext

/-- The texts that a script prints as they are come from string tokens. -/
theorem Script.Reads.str_mem {ω : Type} {spell : ω → Symbol} {ts : List Token} {script : Script ω}
    (h : script.Reads spell ts) {text : String} (htext : text ∈ script.texts) : .str text ∈ ts := by
  induction h with
  | nil => cases htext
  | stop _ ih => exact List.mem_cons_of_mem _ (ih htext)
  | last hs =>
    obtain ⟨s, hmem, hs'⟩ := List.mem_filterMap.mp htext
    obtain rfl := List.mem_singleton.mp hmem
    exact hs.str_mem hs'
  | cons hs _ ih =>
    obtain ⟨t, hmem, ht⟩ := List.mem_filterMap.mp htext
    rcases List.mem_cons.mp hmem with rfl | hmem
    · exact List.mem_append_left _ (hs.str_mem ht)
    · exact List.mem_append_right _
        (List.mem_cons_of_mem _ (ih (List.mem_filterMap.mpr ⟨t, hmem, ht⟩)))

/-- A NUL in a text that is printed as it is stands in the source. -/
theorem ParsesTo.nul_mem {source : String} {script : Script Operator} (h : ParsesTo source script)
    {text : String} (htext : text ∈ script.texts) (hnul : '\x00' ∈ text.toList) :
    '\x00' ∈ source.toList := by
  obtain ⟨tokens, hlexes, hreads⟩ := h
  have htoken : .ok (.str text) ∈ (lexemes source).map (·.outcome) := by
    rw [hlexes]
    exact List.mem_map_of_mem (hreads.str_mem htext)
  obtain ⟨l, hl, houtcome⟩ := List.mem_map.mp htoken
  exact nul_mem_of_lexemesFrom hl houtcome hnul

/-! ### Runs -/

/-- `script.native` reads and assigns what `script` does. -/
theorem Script.accesses_native (script : Script Operator) :
    Script.accesses script.native = Script.accesses script := by
  unfold Script.accesses Script.native
  rw [List.flatMap_map]
  refine List.flatMap_congr fun s _ => ?_
  cases s <;> rfl

/-- `m.Prints main k text`: `main` prints the constant `k`, which is `text`, with `%s`. -/
structure Module.Prints (m : Module) (main : Body) (k : Nat) (text : String) : Prop where
  call : ∃ inst ∈ main.instructions, inst.kind = .call 1 [.global (k + 1), .global k]
  bytes : m.globals[k]?.map (·.bytes) = some text.toByteArray
  format : m.globals[k + 1]?.map (·.bytes) = some "%s\n".toByteArray

/-- `script.lower` has a `printString` in it for each of the texts. -/
theorem Script.exists_grows_printString (policy : ReadPolicy) {script : Script Operator}
    {text : String} (h : text ∈ script.texts) (d : Draft) :
    ∃ d', Grows (Draft.printString d' text) (script.lower policy d) := by
  induction script generalizing d with
  | nil => cases h
  | cons s script ih =>
    obtain ⟨t, ht, htext⟩ := List.mem_filterMap.mp h
    -- The statement that prints the text is here, or it comes later.
    rcases List.mem_cons.mp ht with rfl | ht
    · refine ⟨d, ?_⟩
      cases t with
      | printString text' =>
        obtain rfl := Option.some.inj htext
        exact Script.grows_lower policy script _
      | _ => cases htext
    · exact ih (List.mem_filterMap.mpr ⟨t, ht, htext⟩) _

/-- A draft with a `printString` in it has a module that `Prints` the text. -/
theorem Draft.prints_of_grows {d d' : Draft} {text : String} (h : Grows (d.printString text) d')
    (name : String) :
    (d'.finish.module name).Prints d'.finish.body d.constants.size text := by
  have hwithin := (d'.within_finish name).of_grows h
  have hsize : (d.constant text).constants.size = d.constants.size + 1 := Array.size_push ..
  -- The text is added before the format, so its number is one less.
  have hcall : (d.printString text).instructions[d.instructions.size]? = some ⟨.call 1
      [.global (d.constants.size + 1), .global d.constants.size], .i32,
        d.nextName (some "printfCall")⟩ := by
    rw [Draft.printString, Draft.printf, instructions_push, hsize]
    exact Array.getElem?_push_size
  refine ⟨⟨_, Array.mem_of_getElem? (hwithin.instructions hcall), rfl⟩, ?_, ?_⟩
  · exact (hwithin.of_grows (grows_printf _ _ _)).constants Array.getElem?_push_size
  · rw [← hsize]
    exact constants_printf hwithin

/-- Where the program runs to its end, its native run does so with the same exit code, and with the
    same output iff no text has a NUL. -/
theorem Script.run_native (policy : ReadPolicy) (script : Script Operator) (name : String)
    (hread : policy ≠ .zeroInit → firstUnassigned? [] (Script.accesses script) = none) :
    ∃ x y, ((script.lower policy {}).finish.module name).run "main" = .ok x ∧
      ((script.lower policy {}).finish.module name).native.run "main" = .ok y ∧
      y.exitCode = x.exitCode ∧
      (y.stdout = x.stdout ↔ ∀ text ∈ script.texts, '\x00' ∉ text.toList) := by
  obtain ⟨s, hs, hrun⟩ := script.run_program policy hread name
  rw [← Script.accesses_native] at hread
  obtain ⟨s', hs', hrun'⟩ := script.native.run_program policy hread name
  rw [← script.native_program] at hrun'
  refine ⟨_, _, hrun, hrun', rfl, ?_⟩
  rw [hs.output, hs'.output]
  exact script.output_native_eq_iff

/-- The native run of a program with a read before any assignment fails as the run does. -/
theorem Script.run_native_eq_error (script : Script Operator) (name : String) {v : String}
    (hv : firstUnassigned? [] (Script.accesses script) = some v) :
    ((script.lower .preserve {}).finish.module name).native.run "main" =
      ((script.lower .preserve {}).finish.module name).run "main" := by
  have hv' : firstUnassigned? [] (Script.accesses script.native) = some v := by
    rwa [Script.accesses_native]
  have hlower := script.native_lower .preserve {}
  rw [native_empty] at hlower
  -- The slot that the error names has the same name in both, since only constants differ.
  rw [script.native_program, script.native.run_eq_error hv', script.run_eq_error hv, ← hlower]
  rfl

/-- String constants are printed as C would print them iff no NUL is in them. For every source that
    compiles, each text that it prints as it is becomes a constant which is read as this text here,
    and up to its first NUL in C. The native run fails if the run here does, and otherwise both end
    with the same exit code, and with the same output iff none of these texts has a NUL. None has
    one if the source has none. -/
theorem native_run_iff {source : String} {options : Options} {m : Module}
    (h : compile source options = .ok m) :
    ∃ script main, ParsesTo source script ∧
      (∀ script', ParsesTo source script' → script' = script) ∧
      m.functions[0]? = some ⟨mainPrototype, some main⟩ ∧
      (∀ text ∈ script.texts, ∃ k, m.Prints main k text ∧
        m.constantText (.pointer (.global k)) = .ok text ∧
        m.native.constantText (.pointer (.global k)) = .ok (Text.beforeNul text) ∧
        (Text.beforeNul text = text ↔ '\x00' ∉ text.toList)) ∧
      (∀ x, m.run "main" = .ok x → ∃ y, m.native.run "main" = .ok y ∧ y.exitCode = x.exitCode ∧
        (y.stdout = x.stdout ↔ ∀ text ∈ script.texts, '\x00' ∉ text.toList)) ∧
      (∀ e, m.run "main" = .error e → m.native.run "main" = .error e) ∧
      ('\x00' ∉ source.toList → ∀ text ∈ script.texts, '\x00' ∉ text.toList) := by
  obtain ⟨script, hscript⟩ := parsesTo_of_compile h
  have hread := hscript.firstUnassigned?_eq_none h
  rw [hscript.compile_eq_ok hread] at h
  obtain rfl := Except.ok.inj h
  refine ⟨script, _, hscript, fun script' h' => h'.unique hscript, main_module _ _,
    fun text htext => ?_, ?_⟩
  · obtain ⟨d, hd⟩ := Script.exists_grows_printString options.reads htext {}
    have hprints := prints_of_grows hd options.moduleName
    exact ⟨_, hprints, Module.constantText_eq hprints.bytes,
      Module.constantText_native hprints.bytes, Text.beforeNul_eq_self_iff⟩
  · have hsource : '\x00' ∉ source.toList → ∀ text ∈ script.texts, '\x00' ∉ text.toList :=
      fun hnul text htext hmem => hnul (hscript.nul_mem htext hmem)
    by_cases hrun : options.reads ≠ .zeroInit → firstUnassigned? [] (Script.accesses script) = none
    · obtain ⟨x, y, hx, hy, hcode, hout⟩ := script.run_native options.reads options.moduleName hrun
      rw [hx]
      refine ⟨fun x' hx' => ?_, fun e he => (by cases he), hsource⟩
      obtain rfl := Except.ok.inj hx'
      exact ⟨y, hy, hcode, hout⟩
    · -- Only under `preserve` is a program compiled whose run fails.
      rw [Classical.not_imp, ← ne_eq, Option.ne_none_iff_exists'] at hrun
      obtain ⟨hzero, v, hv⟩ := hrun
      have hpolicy : options.reads = .preserve := by
        cases hreads : options.reads with
        | preserve => rfl
        | zeroInit => exact absurd hreads hzero
        | error =>
          rw [hread hreads] at hv
          cases hv
      rw [hpolicy, script.run_native_eq_error _ hv, script.run_eq_error hv]
      exact ⟨fun x hx => (by cases hx), fun e he => he, hsource⟩

/-- A literal without a NUL, with one of the escapes and a character of three bytes. -/
theorem native_run_sample :
    ∃ m script, compile "print \"a\\t€\"" {} = .ok m ∧ ParsesTo "print \"a\\t€\"" script ∧
      ∃ x y, m.run "main" = .ok x ∧ m.native.run "main" = .ok y ∧ y.stdout = x.stdout := by
  have hparses : ParsesTo "print \"a\\t€\"" [.printString "a\t€"] :=
    ⟨[.print, .str "a\t€"], by decide +kernel, .last (.printString _)⟩
  have hcompile : compile "print \"a\\t€\"" {} = .ok _ := hparses.compile_eq_ok (by simp)
  obtain ⟨script, main, hscript, -, -, -, hrun, -, hsource⟩ := native_run_iff hcompile
  obtain ⟨x, y, hx, hy, -⟩ := Script.run_native .zeroInit [.printString "a\t€"] "top" (by simp)
  obtain ⟨y', hy', -, hout⟩ := hrun x hx
  exact ⟨_, script, hcompile, hscript, x, y', hx, hy', hout.mpr (hsource (by decide))⟩

/-- A NUL in a literal is printed here with what follows it, and ends the text in C. -/
theorem native_run_differs :
    ∃ m x y, compile "print \"a\x00b\"" {} = .ok m ∧ m.run "main" = .ok x ∧ x.stdout = "a\x00b\n" ∧
      m.native.run "main" = .ok y ∧ y.stdout = "a\n" := by
  have hparses : ParsesTo "print \"a\x00b\"" [.printString "a\x00b"] :=
    ⟨[.print, .str "a\x00b"], by decide +kernel, .last (.printString _)⟩
  obtain ⟨s, hs, hrun⟩ := Script.run_program .zeroInit [.printString "a\x00b"] (by simp) "top"
  obtain ⟨s', hs', hrun'⟩ :=
    Script.run_program .zeroInit (Script.native [.printString "a\x00b"]) (by simp) "top"
  rw [← Script.native_program] at hrun'
  exact ⟨_, _, _, hparses.compile_eq_ok (by simp), hrun, hs.output, hrun',
    hs'.output.trans (by decide +kernel)⟩

end Straightline
