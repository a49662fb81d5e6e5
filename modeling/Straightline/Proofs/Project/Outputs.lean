import Straightline.Proofs.Project.Builds
import Straightline.Proofs.Script.Spacing

/-!
# Default outputs

Where the module of a script is written if nothing else is said, and what becomes of the script.

* `Path.HasExtension` says which paths end in a name with an extension. Such a path stays the same
  if it gets this extension.
* `FileTree.locate_defaultOutput_iff`: the default output of a script that can be read is the script
  itself if and only if the path has the extension of a module.
* `compile_text_ne_ok`: the text of a module is no script.
* `build_overwrites_script_iff`: so a build destroys the scripts that have this extension and can be
  compiled, and no others.
-/

namespace Straightline

namespace Path

/-! ### Names and extensions -/

/-- `IsName name`: the component names something in a directory. It leads elsewhere than here or
    up. -/
structure IsName (name : List Char) : Prop where
  no_slash : '/' ∉ name
  ne_nil : name ≠ []
  ne_dot : name ≠ ['.']
  ne_dots : name ≠ ['.', '.']

/-- `HasExtension extension path`: the path ends in a name `stem.extension`, where `stem` is neither
    empty nor a single dot. -/
def HasExtension (extension path : String) : Prop :=
  ∃ front stem, path.toList = front ++ (stem ++ '.' :: extension.toList) ∧
    IsFront front ∧ '/' ∉ stem ∧
    stem ≠ [] ∧ stem ≠ ['.']

/-- A search from the back for a character that is not there goes through all of the text. -/
theorem ne_of_mem_reverse {c : Char} {cs : List Char} (h : c ∉ cs) :
    ∀ d ∈ cs.reverse, decide (d ≠ c) = true := by
  intro d hd
  rw [decide_eq_true_eq]
  rintro rfl
  exact h (List.mem_reverse.mp hd)

/-- `trimBack` takes nothing from a path that ends in a name. -/
theorem trimBack_name {name : List Char} (hname : IsName name) (cs : List Char) :
    trimBack (name.reverse ++ cs) = name.reverse ++ cs := by
  rcases List.eq_nil_or_concat' name with rfl | ⟨init, c, rfl⟩
  · exact absurd rfl hname.ne_nil
  · rw [List.reverse_concat, List.cons_append]
    -- Trimming needs a slash at the end, or a dot that is the whole last component.
    unfold trimBack
    split
    · next h =>
      obtain ⟨rfl, -⟩ := List.cons.inj h
      exact absurd (by simp) hname.no_slash
    · next h =>
      obtain ⟨rfl, hinit⟩ := List.cons.inj h
      rcases List.eq_nil_or_concat' init with rfl | ⟨init, d, rfl⟩
      · exact absurd rfl hname.ne_dot
      · rw [List.reverse_concat, List.cons_append] at hinit
        obtain ⟨rfl, -⟩ := List.cons.inj hinit
        exact absurd (by simp) hname.no_slash
    · rfl

/-- `splitLast?` splits `front ++ name` into these two. -/
theorem splitLast?_name {front name : List Char} (hfront : IsFront front) (hname : IsName name) :
    splitLast? (String.ofList (front ++ name)) = some (front, name) := by
  have hchars := ne_of_mem_reverse hname.no_slash
  -- Backwards the name comes first, up to the slash that ends the front.
  have hdrop : front.reverse.dropWhile (· ≠ '/') = front.reverse := by
    rcases hfront with rfl | ⟨before, rfl⟩ <;> simp
  have htake : front.reverse.takeWhile (· ≠ '/') = [] := by
    rcases hfront with rfl | ⟨before, rfl⟩ <;> simp
  unfold splitLast?
  rw [String.toList_ofList, List.reverse_append, trimBack_name hname]
  split
  · next h => exact absurd (List.reverse_eq_nil_iff.mp (List.append_eq_nil_iff.mp h).1) hname.ne_nil
  · rw [List.dropWhile_append_of_pos hchars, List.takeWhile_append_of_pos hchars, hdrop, htake,
      List.append_nil, List.reverse_reverse, List.reverse_reverse]

/-- A path ends in one name only. -/
theorem name_unique {front name front' name' : List Char} (hfront : IsFront front)
    (hname : IsName name) (hfront' : IsFront front') (hname' : IsName name')
    (h : front ++ name = front' ++ name') :
    name = name' := by
  have hsplit := splitLast?_name hfront hname
  rw [h, splitLast?_name hfront' hname', Option.some.injEq, Prod.mk.injEq] at hsplit
  exact hsplit.2.symm

/-- `stem (s ++ '.' :: extension) = s` if `s` is not empty. -/
theorem stem_append {s extension : List Char} (hs : s ≠ []) (hextension : '.' ∉ extension) :
    stem (s ++ '.' :: extension) = s := by
  have hdrop : (s ++ '.' :: extension).reverse.dropWhile (· ≠ '.') = '.' :: s.reverse := by
    rw [List.reverse_append, List.reverse_cons, List.append_assoc,
      List.dropWhile_append_of_pos (ne_of_mem_reverse hextension)]
    simp
  unfold stem
  rw [hdrop]
  simp [hs]

/-- `stem name` has no character that `name` lacks. -/
theorem notMem_stem {c : Char} {name : List Char} (h : c ∉ name) : c ∉ stem name := by
  unfold stem
  dsimp only
  split
  · exact h
  · intro hc
    rw [List.mem_reverse] at hc
    exact h (List.mem_reverse.mp
      ((List.dropWhile_suffix _).subset ((List.drop_suffix 1 _).subset hc)))

/-- `stem name` is empty only if `name` is. -/
theorem stem_ne_nil {name : List Char} (h : name ≠ []) : stem name ≠ [] := by
  unfold stem
  dsimp only
  split
  · exact h
  · next hfront => simpa using hfront

/-- `s ++ '.' :: extension` is a name if `s` is neither empty nor a single dot. -/
theorem isName_append {s extension : List Char} (hs : s ≠ []) (hdot : s ≠ ['.']) (hslash : '/' ∉ s)
    (hextension : '/' ∉ extension) : IsName (s ++ '.' :: extension) where
  no_slash := by simp [hslash, hextension]
  ne_nil := by simp
  ne_dot h := by
    obtain ⟨a, s, rfl⟩ := List.exists_cons_of_ne_nil hs
    simp at h
  ne_dots h := by
    obtain ⟨a, s, rfl⟩ := List.exists_cons_of_ne_nil hs
    cases s <;> simp_all

section

variable {extension : String}

/-- `withExtension` puts the extension behind `stem name`. Behind a single dot it leaves `..`. -/
theorem withExtension_name {front name : List Char} (hfront : IsFront front) (hname : IsName name) :
    withExtension extension (String.ofList (front ++ name)) =
      if stem name = ['.'] then String.ofList (front ++ ['.', '.'])
      else String.ofList (front ++ (stem name ++ '.' :: extension.toList)) := by
  have hplain : ¬(name = ['.'] ∨ name = ['.', '.']) := not_or.mpr ⟨hname.ne_dot, hname.ne_dots⟩
  unfold withExtension
  rw [splitLast?_name hfront hname]
  simp only [if_neg hplain, String.toList_ofList, and_true, List.append_assoc]

variable (hdot : '.' ∉ extension.toList) (hslash : '/' ∉ extension.toList)

include hdot hslash

/-- `HasExtension extension (front ++ name)` iff `stem name ++ '.' :: extension` is `name` again. -/
theorem hasExtension_name_iff {front name : List Char} (hfront : IsFront front)
    (hname : IsName name) :
    HasExtension extension (String.ofList (front ++ name)) ↔
      stem name ≠ ['.'] ∧ stem name ++ '.' :: extension.toList = name := by
  rw [HasExtension, String.toList_ofList]
  constructor
  · rintro ⟨front', s, h, hfront', hs, hnil, hsdot⟩
    obtain rfl := name_unique hfront hname hfront' (isName_append hnil hsdot hs hslash) h
    rw [stem_append hnil hdot]
    exact ⟨hsdot, rfl⟩
  · rintro ⟨hsdot, h⟩
    exact ⟨front, stem name, by rw [h], hfront, notMem_stem hname.no_slash,
      stem_ne_nil hname.ne_nil, hsdot⟩

/-- `withExtension extension path = path` for a path that already has the extension. -/
theorem HasExtension.withExtension_eq {path : String} (h : HasExtension extension path) :
    withExtension extension path = path := by
  obtain ⟨front, s, hpath, hfront, hs, hnil, hsdot⟩ := h
  obtain rfl := String.toList_inj.mp (hpath.trans String.toList_ofList.symm)
  rw [withExtension_name hfront (isName_append hnil hsdot hs hslash), stem_append hnil hdot,
    if_neg hsdot]

end

end Path

namespace FileTree

open Straightline.Path

variable {workingDirectory : List String} {t : FileTree workingDirectory}

/-! ### Names in directories -/

/-- A name leads from a directory to the place in it that has this name. -/
theorem child_name {name : List Char} (hname : IsName name) (d : Place) :
    d.child (String.ofList name) = d ++ [String.ofList name] := by
  have hnil : String.ofList name ≠ "" :=
    fun h => hname.ne_nil (by simpa using congrArg String.toList h)
  have hdot : String.ofList name ≠ "." :=
    fun h => hname.ne_dot (by simpa using congrArg String.toList h)
  have hdots : String.ofList name ≠ ".." :=
    fun h => hname.ne_dots (by simpa using congrArg String.toList h)
  unfold Place.child
  split
  · exact absurd ‹_› hnil
  · exact absurd ‹_› hdot
  · exact absurd ‹_› hdots
  · rfl

/-- What is above a directory is a directory. -/
theorem entry?_parent {d : Place} (hopens : t.Opens d) (hd : t.entry? d = some .directory) :
    t.entry? (d.child "..") = some .directory := by
  show t.entry? d.dropLast = _
  by_cases h : d.dropLast = d
  · rwa [h]
  · exact hopens _ (List.dropLast_prefix d) h

/-- A path that ends in `..` leads to a directory. -/
theorem entry?_of_locate_parent {front : List Char} {p : Place} (hfront : IsFront front)
    (h : t.locate (String.ofList (front ++ ['.', '.'])) = .ok p) :
    t.entry? p = some .directory := by
  obtain ⟨-, d, hd, henter⟩ := (locate_front_iff hfront (by decide)).mp h
  obtain ⟨hdirectory, -, rfl⟩ := enter_eq_ok_iff.mp henter
  exact entry?_parent (opens_of_directory hd) hdirectory

/-- A path that leads to a file ends in its name. -/
theorem exists_name_of_file {path : String} {p : Place} {bytes : ByteArray}
    (hpath : t.locate path = .ok p) (hfile : t.entry? p = some (.file bytes)) :
    ∃ front name names, path = String.ofList (front ++ name) ∧ IsFront front ∧ IsName name ∧
      p = names ++ [String.ofList name] := by
  obtain ⟨front, name, hchars, hfront, hslash⟩ := exists_front path.toList
  obtain rfl := String.toList_inj.mp (hchars.trans String.toList_ofList.symm)
  obtain ⟨-, d, hd, henter⟩ := (locate_front_iff hfront hslash).mp hpath
  obtain ⟨hdirectory, -, rfl⟩ := enter_eq_ok_iff.mp henter
  -- A last component that is empty or made of dots leads to a directory.
  have hname : IsName name := by
    refine ⟨hslash, ?_, ?_, ?_⟩ <;> rintro rfl
    · exact absurd (hdirectory.symm.trans hfile) (by simp)
    · exact absurd (hdirectory.symm.trans hfile) (by simp)
    · exact absurd ((entry?_of_locate_parent hfront hpath).symm.trans hfile) (by simp)
  exact ⟨front, name, d, rfl, hfront, hname, child_name hname d⟩

/-- `defaultOutput script` leads where `script` leads iff `HasExtension "ll" script`, if the script
    can be read. -/
theorem locate_defaultOutput_iff {script : String} {bytes : ByteArray}
    (h : t.read script = .ok bytes) :
    t.locate (defaultOutput script) = t.locate script ↔ HasExtension "ll" script := by
  obtain ⟨p, hlocate, hfile⟩ := read_eq_ok_iff.mp h
  obtain ⟨front, name, names, rfl, hfront, hname, rfl⟩ := exists_name_of_file hlocate hfile
  constructor
  · intro hsame
    rw [hlocate, defaultOutput, withExtension_name hfront hname] at hsame
    rw [hasExtension_name_iff (by decide) (by decide) hfront hname]
    split at hsame
    · -- The output would be the directory above the one that the script is in.
      exact absurd ((entry?_of_locate_parent hfront hsame).symm.trans hfile) (by simp)
    · next hdot =>
      have hname' : IsName (stem name ++ '.' :: "ll".toList) :=
        isName_append (stem_ne_nil hname.ne_nil) hdot (notMem_stem hname.no_slash) (by decide)
      obtain ⟨-, d, hd, henter⟩ := (locate_front_iff hfront hname'.no_slash).mp hsame
      obtain ⟨-, -, hplace⟩ := enter_eq_ok_iff.mp henter
      rw [child_name hname'] at hplace
      have hlast := List.singleton_inj.mp (List.append_inj_right' hplace rfl)
      exact ⟨hdot, (String.ofList_injective hlast).symm⟩
  · intro hextension
    rw [defaultOutput, hextension.withExtension_eq (by decide) (by decide)]

/-- A file that can be read can be replaced. -/
theorem exists_write_of_read {path : String} {old : ByteArray} (h : t.read path = .ok old)
    (bytes : ByteArray) :
    ∃ t', t.write path bytes = .ok t' ∧ t'.read path = .ok bytes := by
  obtain ⟨p, hlocate, hfile⟩ := read_eq_ok_iff.mp h
  have htarget := target_eq_ok_iff.mpr ⟨hlocate, by simp [hfile]⟩
  have hwrite : t.write path bytes = .ok (t.set p bytes) := by
    rw [write, htarget]
    rfl
  obtain ⟨q, hq⟩ := replaces_of_write hwrite
  exact ⟨_, hwrite, hq.read_same path hq.place⟩

end FileTree

/-! ### Modules are no scripts -/

/-- `Module.text` starts with the same comment for all modules. -/
theorem Module.exists_text_eq (m : Module) :
    ∃ rest, m.text.toList = "; ModuleID = '".toList ++ rest := by
  simp [Module.text, Module.lines, Module.headerLines, List.append_assoc, String.join_cons]

/-- A module is introduced by a comment, but not by one of a script: the quote in it begins no
    token. -/
theorem outcomes_header (rest : List Char) :
    outcomes ("; ModuleID = '".toList ++ rest) =
      .ok .stop :: .ok (.ident "ModuleID") :: .ok .assign :: .error (.unexpectedChar '\'') ::
        outcomes rest := by
  have hstop : splitTrivia false ("; ModuleID = '".toList ++ rest) =
      ([], ';' :: (" ModuleID = '".toList ++ rest)) := rfl
  have hword : splitTrivia false (" ModuleID = '".toList ++ rest) =
      ([' '], 'M' :: ("oduleID".toList ++ ' ' :: ("= '".toList ++ rest))) := rfl
  have hassign : splitTrivia false (' ' :: ("= '".toList ++ rest)) =
      ([' '], '=' :: (" '".toList ++ rest)) := rfl
  have hquote : splitTrivia false (" '".toList ++ rest) = ([' '], '\'' :: rest) := rfl
  have hscanStop (cs : List Char) : scanToken ';' cs = ⟨.ok .stop, [';'], cs⟩ := rfl
  have hscanWord : (scanToken 'M' "oduleID".toList).outcome = .ok (.ident "ModuleID") := by
    decide +kernel
  have hscanRest : (scanToken 'M' "oduleID".toList).rest = [] := by decide +kernel
  have hscanAssign : scanToken '=' (" '".toList ++ rest) =
      ⟨.ok .assign, ['='], " '".toList ++ rest⟩ := rfl
  -- The quote is the first character that starts no token, whatever follows it.
  have hscanQuote : scanToken '\'' rest = ⟨.error (.unexpectedChar '\''), ['\''], rest⟩ :=
    (Scans.unexpected rfl (by decide) (by decide) rfl (by decide +kernel)).scanToken_eq
  rw [outcomes_of_scan hstop, hscanStop, outcomes_of_scan hword,
    scanToken_separator (.inl rfl) hscanWord, Scan.before, hscanWord, hscanRest, List.nil_append,
    outcomes_of_scan hassign, hscanAssign, outcomes_of_scan hquote, hscanQuote]

/-- `compile` accepts the text of no module. -/
theorem compile_text_ne_ok (m m' : Module) (options : Options) :
    compile m.text options ≠ .ok m' := by
  intro h
  obtain ⟨rest, hrest⟩ := m.exists_text_eq
  obtain ⟨script, tokens, hlex, -⟩ := parsesTo_of_compile h
  have houtcomes : outcomes m.text.toList = tokens.map .ok := hlex
  have hfault : (.error (.unexpectedChar '\'') : Except Fault Token) ∈ outcomes m.text.toList := by
    rw [hrest, outcomes_header]
    simp
  rw [houtcomes] at hfault
  simp at hfault

/-! ### What becomes of the script -/

namespace FileTree

variable {workingDirectory : List String} {t : FileTree workingDirectory} {script text : String}
  {config : Option String} {reads : Option ReadPolicy}

/-- A script with a `t.moduleText` can be read, and its text is another one. -/
theorem exists_read_of_moduleText (h : t.moduleText script config reads = .ok text) :
    ∃ source : String, t.read script = .ok source.toByteArray ∧ text ≠ source := by
  obtain ⟨settings, source, module, -, hsource, hcompile, rfl⟩ := moduleText_eq_ok_iff.mp h
  refine ⟨source, t.text_eq_ok_iff.mp hsource, ?_⟩
  rintro rfl
  exact compile_text_ne_ok _ _ _ hcompile

/-- `build` without an output replaces a script with `HasExtension "ll"` by its `t.moduleText`. -/
theorem exists_overwritten (hextension : Path.HasExtension "ll" script)
    (h : t.moduleText script config reads = .ok text) (verbosity : Nat) :
    ∃ t', (perform ⟨.build none, script, reads, config, verbosity⟩).on t = (.ok ("", 0), t') ∧
      t'.read script = .ok text.toByteArray ∧ t.read script ≠ .ok text.toByteArray := by
  obtain ⟨source, hread, hne⟩ := exists_read_of_moduleText h
  obtain ⟨t', hwrite, hread'⟩ := exists_write_of_read hread text.toByteArray
  refine ⟨t', build_on_of_written _ _ _ _ h ?_, hread', ?_⟩
  · rwa [Option.getD_none, defaultOutput, hextension.withExtension_eq (by decide) (by decide)]
  · rw [hread, Ne, Except.ok.injEq, String.toByteArray_inj]
    exact hne.symm

/-- If `build` without an output changes what is read from the script, then `HasExtension "ll"
    script` and there is a `t.moduleText`. -/
theorem hasExtension_of_read_ne {verbosity : Nat}
    (h : ((perform ⟨.build none, script, reads, config, verbosity⟩).on t).2.read script ≠
      t.read script) :
    Path.HasExtension "ll" script ∧ ∃ text, t.moduleText script config reads = .ok text := by
  cases hmodule : t.moduleText script config reads with
  | error f =>
    rw [build_on_of_error _ _ _ _ hmodule] at h
    exact absurd rfl h
  | ok text =>
    refine ⟨?_, text, rfl⟩
    obtain ⟨source, hread, -⟩ := exists_read_of_moduleText hmodule
    rw [← locate_defaultOutput_iff hread]
    cases hwrite :
        t.write ((none : Option String).getD (defaultOutput script)) text.toByteArray with
    | error e =>
      rw [build_on_of_unwritten _ _ _ _ hmodule hwrite] at h
      exact absurd rfl h
    | ok t' =>
      rw [build_on_of_written _ _ _ _ hmodule hwrite] at h
      obtain ⟨p, hp⟩ := replaces_of_write hwrite
      -- The output written elsewhere would have left the script as it was.
      by_contra hother
      have hplace : t.locate script ≠ .ok p := fun hsame => hother (hp.place.trans hsame.symm)
      exact h (((hp.read_other script hplace _).mpr hread).trans hread.symm)

end FileTree

/-- A build without an explicit output changes what is read from the script if and only if the
    script can be compiled and its path has the extension `ll`. Then the build succeeds, and the
    script is what is emitted for it, which it was not before. The reason is that the default output
    of a file is the file itself iff it has this extension. -/
theorem build_overwrites_script_iff {workingDirectory : List String} (t : FileTree workingDirectory)
    (script : String) (config : Option String) (reads : Option ReadPolicy) (verbosity : Nat) :
    let emit : Invocation := ⟨.emit, script, reads, config, verbosity⟩
    let build : Invocation := ⟨.build none, script, reads, config, verbosity⟩
    (((perform build).on t).2.read script ≠ t.read script ↔
      Path.HasExtension "ll" script ∧ ∃ text, (perform emit).on t = (.ok (text, 0), t)) ∧
    (∀ text, Path.HasExtension "ll" script → (perform emit).on t = (.ok (text, 0), t) →
      ∃ t', (perform build).on t = (.ok ("", 0), t') ∧ t'.read script = .ok text.toByteArray ∧
        t.read script ≠ .ok text.toByteArray) ∧
    ∀ bytes, t.read script = .ok bytes →
      (t.locate (defaultOutput script) = t.locate script ↔ Path.HasExtension "ll" script) := by
  intro emit build
  refine ⟨⟨fun h => ?_, ?_⟩, fun text hextension hemit => ?_, fun bytes hread => ?_⟩
  · obtain ⟨hextension, text, hmodule⟩ := FileTree.hasExtension_of_read_ne h
    exact ⟨hextension, text, (FileTree.emit_on_iff ..).mpr hmodule⟩
  · rintro ⟨hextension, text, hemit⟩
    obtain ⟨t', hbuild, hread, hne⟩ :=
      FileTree.exists_overwritten hextension ((FileTree.emit_on_iff ..).mp hemit) verbosity
    rw [hbuild, hread]
    exact hne.symm
  · exact FileTree.exists_overwritten hextension ((FileTree.emit_on_iff ..).mp hemit) verbosity
  · exact FileTree.locate_defaultOutput_iff hread

/-- A tree with a script in its working directory that has the name of a module. -/
def misnamedTree : FileTree ["home"] := ⟨[(["home", "x.ll"], sampleSource.toByteArray)]⟩

/-- The path `x.ll` has the extension. -/
theorem hasExtension_misnamed : Path.HasExtension "ll" "x.ll" :=
  ⟨[], ['x'], rfl, .inl rfl, by decide, by decide, by decide⟩

/-- A script that is replaced by its module, and one that stays. -/
theorem build_overwrites_script_sample :
    (∃ text t', (perform ⟨.emit, "x.ll", none, none, 0⟩).on misnamedTree =
      (.ok (text, 0), misnamedTree) ∧
      (perform ⟨.build none, "x.ll", none, none, 0⟩).on misnamedTree = (.ok ("", 0), t') ∧
      t'.read "x.ll" = .ok text.toByteArray) ∧
    sampleTree.locate (defaultOutput "a.ssc") ≠ sampleTree.locate "a.ssc" ∧
      ((perform ⟨.build none, "a.ssc", none, none, 0⟩).on sampleTree).2.read "a.ssc" =
        .ok sampleSource.toByteArray := by
  have hread : sampleTree.read "a.ssc" = .ok sampleSource.toByteArray := rfl
  have hplain : ¬ Path.HasExtension "ll" "a.ssc" := by
    rintro ⟨front, stem, h, -⟩
    simpa using congrArg List.getLast? h
  obtain ⟨text, hmodule⟩ : ∃ text, misnamedTree.moduleText "x.ll" none none = .ok text :=
    exists_moduleText_sample rfl rfl
  have hemit := (FileTree.emit_on_iff "x.ll" none none 0).mpr hmodule
  obtain ⟨t', hbuild, hread', -⟩ :=
    (build_overwrites_script_iff misnamedTree "x.ll" none none 0).2.1 text
    hasExtension_misnamed hemit
  obtain ⟨hsame, -, houtput⟩ := build_overwrites_script_iff sampleTree "a.ssc" none none 0
  refine ⟨⟨text, t', hemit, hbuild, hread'⟩, fun h => hplain ((houtput _ hread).mp h), ?_⟩
  -- A script that changed would have the extension.
  by_contra h
  exact hplain (hsame.mp (hread ▸ h)).1

/-- The script is gone after the build. -/
theorem script_destroyed :
    misnamedTree.read "x.ll" = .ok sampleSource.toByteArray ∧
      ∃ t', (perform ⟨.build none, "x.ll", none, none, 0⟩).on misnamedTree = (.ok ("", 0), t') ∧
        t'.read "x.ll" ≠ .ok sampleSource.toByteArray := by
  have hread : misnamedTree.read "x.ll" = .ok sampleSource.toByteArray := rfl
  obtain ⟨text, hmodule⟩ : ∃ text, misnamedTree.moduleText "x.ll" none none = .ok text :=
    exists_moduleText_sample rfl hread
  obtain ⟨t', hbuild, hread', hne⟩ := FileTree.exists_overwritten hasExtension_misnamed hmodule 0
  refine ⟨hread, t', hbuild, ?_⟩
  rw [hread', ← hread]
  exact hne.symm

end Straightline
