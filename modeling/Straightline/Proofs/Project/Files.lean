import Mathlib.Data.List.Basic
import Straightline.Project.FileTree
import Straightline.Proofs.Results

/-!
# Writing a file

What a write changes in a tree of files, and what it leaves as it is.

* `FileTree.Opens` says that the way to a place leads through directories. It holds of every place
  that a path leads to.
* `FileTree.entry?_set`: a file that is written is the only entry that changes.
* `FileTree.Replaces` is what is true of a tree before and after a write, said by places and by
  paths, and `FileTree.replaces_of_write` says that it is.
-/

namespace Straightline

/-! ### The last component of a path -/

/-- What can stand in front of the last component of a path: nothing, or a text that ends in a
    slash. -/
def Path.IsFront (front : List Char) : Prop := front = [] ∨ ∃ before, front = before ++ ['/']

/-- Every path is a front and a last component without slashes. -/
theorem Path.exists_front (cs : List Char) :
    ∃ front name, cs = front ++ name ∧ IsFront front ∧ '/' ∉ name := by
  by_cases h : '/' ∈ cs
  · -- The last slash is the first one of the text read backwards.
    obtain ⟨as, bs, hsplit, has⟩ := List.eq_append_cons_of_mem (List.mem_reverse.mpr h)
    refine ⟨bs.reverse ++ ['/'], as.reverse, ?_, .inr ⟨_, rfl⟩,
      fun hmem => has (List.mem_reverse.mp hmem)⟩
    rw [← List.reverse_reverse cs, hsplit]
    simp
  · exact ⟨[], cs, rfl, .inl rfl, h⟩

namespace FileTree

open Straightline.Path

variable {workingDirectory : List String} {t : FileTree workingDirectory}

/-! ### Contents -/

/-- The places of the files of a tree. -/
def keys (t : FileTree workingDirectory) : List Place := t.files.map (·.1)

/-- The test of `set` whether `p` is the place of a file. -/
theorem any_iff_mem_keys (p : Place) :
    t.files.any (fun f => decide (f.1 = p)) = true ↔ p ∈ t.keys := by
  simp [keys]

/-- The search of `file?` fails iff `p` is not the place of a file. -/
theorem find?_eq_none_iff (p : Place) :
    t.files.find? (fun f => decide (f.1 = p)) = none ↔ p ∉ t.keys := by
  rw [keys, List.mem_map, List.find?_eq_none]
  simp only [decide_eq_true_eq, not_exists, not_and]

/-- After `t.set p bytes` the file at `p` holds `bytes`, and `file? q` is the same for every `q ≠
    p`. -/
theorem file?_set (t : FileTree workingDirectory) (p : Place) (bytes : ByteArray) (q : Place) :
    (t.set p bytes).file? q = if q = p then some bytes else t.file? q := by
  unfold set file?
  split
  · next hold =>
    -- Only the contents change, so the same entries are found.
    have hkey : ∀ f : Place × ByteArray,
        decide ((if f.1 = p then (p, bytes) else f).1 = q) = decide (f.1 = q) := by
      intro f
      split <;> simp_all
    rw [List.find?_map, Function.comp_def]
    simp only [hkey]
    cases hfound : t.files.find? (fun f => decide (f.1 = q)) with
    | none =>
      have hne : q ≠ p := fun h =>
        (find?_eq_none_iff q).mp hfound (h ▸ (any_iff_mem_keys p).mp hold)
      simp [hne]
    | some f =>
      have hf : f.1 = q := by simpa using List.find?_some hfound
      by_cases h : q = p <;> simp [hf, h]
  · next hnew =>
    rw [List.find?_append]
    by_cases h : q = p
    · subst h
      rw [(find?_eq_none_iff q).mpr fun h => hnew ((any_iff_mem_keys q).mpr h)]
      simp
    · simp [h, Ne.symm h]

/-- The places of files after `t.set p bytes` are those of before and `p`. -/
theorem mem_keys_set (t : FileTree workingDirectory) (p : Place) (bytes : ByteArray) (q : Place) :
    q ∈ (t.set p bytes).keys ↔ q ∈ t.keys ∨ q = p := by
  unfold set
  split
  · next hold =>
    -- A file that is there is replaced in its place, so the keys stay.
    have hkeys : (FileTree.mk (t.files.map fun f => if f.1 = p then (p, bytes) else f) :
        FileTree workingDirectory).keys = t.keys := by
      rw [keys, keys, List.map_map]
      refine List.map_congr_left fun f _ => ?_
      by_cases h : f.1 = p <;> simp [h]
    rw [hkeys]
    refine ⟨.inl, fun h => h.elim id ?_⟩
    rintro rfl
    exact (any_iff_mem_keys _).mp hold
  · simp [keys]

/-- `p` holds a file iff `p` is a proper prefix of the place of one. -/
theorem holdsFile_iff (t : FileTree workingDirectory) (p : Place) :
    t.holdsFile p = true ↔ ∃ file ∈ t.keys, p <+: file ∧ file ≠ p := by
  simp [holdsFile, keys]

/-- The directories are the prefixes of `workingDirectory`, and what holds a file and is none. -/
theorem entry?_eq_directory_iff {p : Place} :
    t.entry? p = some .directory ↔
      p <+: workingDirectory ∨ t.file? p = none ∧ t.holdsFile p = true := by
  unfold entry?
  by_cases hp : p <+: workingDirectory
  · simp [hp]
  · cases t.file? p <;> simp [hp]

/-! ### Places -/

/-- `t.Opens p` says that the way to the place `p` leads through directories: every proper prefix of
    `p` is one. -/
def Opens (t : FileTree workingDirectory) (p : Place) : Prop :=
  ∀ above, above <+: p → above ≠ p → t.entry? above = some .directory

/-- A component leads nowhere else, up, or to what has its name. -/
theorem child_cases (p : Place) (component : String) :
    p.child component = p ∨ p.child component = p.dropLast ∨
      p.child component = p ++ [component] := by
  unfold Place.child
  split <;> simp

/-- `t.enter p component` succeeds iff `p` is a directory and the component is not too long, and
    gives `p.child component`. -/
theorem enter_eq_ok_iff {p p' : Place} {component : String} :
    t.enter p component = .ok p' ↔
      t.entry? p = some .directory ∧ component.utf8ByteSize ≤ nameLimit ∧
      p' = p.child component := by
  unfold enter
  split <;> simp_all
  grind

/-- `t.enter` leads from a place that opens to one that opens. -/
theorem Opens.enter {p p' : Place} {component : String} (hp : t.Opens p)
    (h : t.enter p component = .ok p') : t.Opens p' := by
  obtain ⟨hdirectory, -, rfl⟩ := enter_eq_ok_iff.mp h
  rcases child_cases p component with heq | heq | heq
  · rwa [heq]
  · -- What leads to the directory above leads to `p` too, and is not all of `p`.
    rw [heq]
    intro above habove hne
    refine hp above (habove.trans (List.dropLast_prefix p)) ?_
    rintro rfl
    have hlength := habove.length_le
    rw [List.length_dropLast] at hlength
    have hnil : above = [] := List.eq_nil_of_length_eq_zero (by omega)
    exact hne (by rw [hnil]; rfl)
  · rw [heq]
    intro above habove hne
    rcases List.prefix_concat_iff.mp habove with rfl | habove
    · exact absurd rfl hne
    · by_cases h : above = p
      · rwa [h]
      · exact hp above habove h

/-- Components that are entered one after the other lead to a place that opens. -/
theorem Opens.foldlM {p p' : Place} {components : List String} (hp : t.Opens p)
    (h : components.foldlM t.enter p = .ok p') : t.Opens p' := by
  induction components generalizing p with
  | nil =>
    obtain rfl := Except.ok.inj h
    exact hp
  | cons component components ih =>
    rw [List.foldlM_cons] at h
    obtain ⟨q, hstep, hrest⟩ := bind_eq_ok_iff.mp h
    exact ih (hp.enter hstep) hrest

/-- Both starts of paths, the root and the working directory, open. -/
theorem opens_start (path : String) : t.Opens (start workingDirectory path) := by
  unfold start
  split
  · intro above habove hne
    exact absurd (List.prefix_nil.mp habove) hne
  · intro above habove _
    exact entry?_eq_directory_iff.mpr (.inl habove)

/-- `t.locate path` succeeds iff the path can be one and all its components can be entered. -/
theorem locate_eq_ok_iff {path : String} {p : Place} :
    t.locate path = .ok p ↔ FileError.ofPath? path = none ∧
      (components path).foldlM t.enter (start workingDirectory path) = .ok p := by
  unfold locate
  split <;> simp_all

/-- Every place that `t.locate` finds opens. -/
theorem opens_of_locate {path : String} {p : Place} (h : t.locate path = .ok p) : t.Opens p :=
  (opens_start path).foldlM (locate_eq_ok_iff.mp h).2

/-- `t.read path` succeeds iff the path leads to a file, and gives its contents. -/
theorem read_eq_ok_iff {path : String} {bytes : ByteArray} :
    t.read path = .ok bytes ↔ ∃ p, t.locate path = .ok p ∧ t.entry? p = some (.file bytes) := by
  unfold read
  cases t.locate path with
  | error e => simp [bind, Except.bind]
  | ok p =>
    simp only [bind, Except.bind, Except.ok.injEq, exists_eq_left']
    split <;> simp_all

/-! ### What a write changes -/

section

variable {p : Place} {bytes : ByteArray}

/-- What holds a file after `t.set p bytes` held one before, or is above `p`. -/
theorem holdsFile_set_iff (q : Place) :
    (t.set p bytes).holdsFile q = true ↔ t.holdsFile q = true ∨ (q <+: p ∧ p ≠ q) := by
  simp only [holdsFile_iff, mem_keys_set]
  constructor
  · rintro ⟨file, hfile | rfl, h⟩
    · exact .inl ⟨file, hfile, h⟩
    · exact .inr h
  · rintro (⟨file, hfile, h⟩ | h)
    · exact ⟨file, .inl hfile, h⟩
    · exact ⟨p, .inr rfl, h⟩

variable (hopens : t.Opens p) (hfree : t.entry? p ≠ some .directory)

include hopens hfree

/-- `t.set p bytes` changes no entry but the one at `p`, if `p` opens and is no directory. -/
theorem entry?_set (q : Place) :
    FileTree.entry? (t.set p bytes) q = if q = p then some (.file bytes) else t.entry? q := by
  by_cases heq : q = p
  · subst heq
    have hq : ¬ q <+: workingDirectory := fun h => hfree (entry?_eq_directory_iff.mpr (.inl h))
    simp [ entry?, file?_set, hq]
  · by_cases hq : q <+: workingDirectory
    · simp [ entry?, hq, heq]
    · -- No directory is new: those on the way to the file were there.
      have hholds : t.file? q = none → (t.set p bytes).holdsFile q = t.holdsFile q := by
        intro hnone
        rw [Bool.eq_iff_iff, holdsFile_set_iff]
        refine ⟨fun h => h.elim id fun h => ?_, .inl⟩
        rcases entry?_eq_directory_iff.mp (hopens q h.1 heq) with h | h
        · exact absurd h hq
        · exact h.2
      unfold entry?
      rw [file?_set, if_neg heq, if_neg heq]
      cases hfile : t.file? q with
      | none => rw [hholds hfile]
      | some contents => rfl

/-- Where there was no directory, no way led on, and none does now: `t.set p bytes` changes no
    path. -/
theorem locate_set_iff (path : String) (q : Place) :
    (t.set p bytes).locate path = .ok q ↔ t.locate path = .ok q := by
  rw [locate_eq_ok_iff, locate_eq_ok_iff]
  refine and_congr_right fun _ => foldlM_eq_ok_congr (fun q component q' => ?_) _ _ _
  rw [enter_eq_ok_iff, enter_eq_ok_iff, entry?_set hopens hfree]
  by_cases hq : q = p
  · subst hq
    simp [hfree]
  · rw [if_neg hq]

/-- By the paths that lead to `p` one reads `bytes` after `t.set p bytes`, by others what was
    read. -/
theorem read_set_iff (path : String) (contents : ByteArray) :
    (t.set p bytes).read path = .ok contents ↔
      if t.locate path = .ok p then contents = bytes else t.read path = .ok contents := by
  simp only [read_eq_ok_iff, locate_set_iff hopens hfree, entry?_set hopens hfree]
  split
  · next h => simp [h, eq_comm]
  · next h =>
    refine exists_congr fun q => and_congr_right fun hq => ?_
    rw [if_neg (by rintro rfl; exact h hq)]

end

/-! ### The directory in front of the last component -/

/-- The components in front of the last one. -/
def frontComponents (front : List Char) : List String :=
  (Text.splitAt '/' front).dropLast.map String.ofList

/-- The components of `front ++ name` are those of the front and `name`. -/
theorem components_front {front name : List Char} (hfront : IsFront front) (hname : '/' ∉ name) :
    components (String.ofList (front ++ name)) = frontComponents front ++ [String.ofList name] := by
  rw [components, frontComponents, String.toList_ofList]
  rcases hfront with rfl | ⟨before, rfl⟩
  · rw [List.nil_append, Text.splitAt_of_notMem hname]
    rfl
  · rw [Text.splitAt_append_cons, List.append_assoc, List.singleton_append,
      Text.splitAt_append_cons, Text.splitAt_of_notMem hname]
    simp [Text.splitAt]

/-- A path starts where its front starts. -/
theorem start_front {front name : List Char} (hname : '/' ∉ name) :
    start workingDirectory (String.ofList (front ++ name)) =
      start workingDirectory (String.ofList front) := by
  unfold start
  cases front with
  | cons c front => simp
  | nil =>
    have hhead : name.head? ≠ some '/' := fun h => hname (List.mem_of_mem_head? h)
    simp [hhead]

/-- The directory that a path goes through last. -/
def directory (t : FileTree workingDirectory) (front : List Char) : Except FileError Place :=
  (frontComponents front).foldlM t.enter (start workingDirectory (String.ofList front))

/-- `t.directory` gives places that open. -/
theorem opens_of_directory {front : List Char} {d : Place} (h : t.directory front = .ok d) :
    t.Opens d :=
  (opens_start _).foldlM h

/-- `t.locate (front ++ name)` succeeds iff the path can be one and `t.directory front` can be
    entered by `name`. -/
theorem locate_front_iff {front name : List Char} (hfront : IsFront front) (hname : '/' ∉ name)
    {p : Place} :
    t.locate (String.ofList (front ++ name)) = .ok p ↔
      FileError.ofPath? (String.ofList (front ++ name)) = none ∧
        ∃ d, t.directory front = .ok d ∧ t.enter d (String.ofList name) = .ok p := by
  rw [locate_eq_ok_iff, components_front hfront hname, start_front hname, List.foldlM_append,
    bind_eq_ok_iff]
  refine and_congr_right fun _ => exists_congr fun d => and_congr_right fun _ => ?_
  rw [List.foldlM_cons, bind_eq_ok_iff]
  constructor
  · rintro ⟨q, hq, h⟩
    rwa [← Except.ok.inj h]
  · intro h
    exact ⟨p, h, rfl⟩

/-! ### Where a file is written -/

/-- `t.free directory name = .ok p` iff `t.enter directory name = .ok p` and no directory is at
    `p`. -/
theorem free_eq_ok_iff {directory p : Place} {name : String} :
    t.free directory name = .ok p ↔ t.enter directory name = .ok p ∧
      t.entry? p ≠ some .directory := by
  rw [free, bind_eq_ok_iff]
  constructor
  · rintro ⟨q, hq, h⟩
    split at h
    · cases h
    · next hfree =>
      obtain rfl := Except.ok.inj h
      exact ⟨hq, hfree⟩
  · rintro ⟨hp, hfree⟩
    refine ⟨p, hp, ?_⟩
    split
    · next h => exact absurd h hfree
    · rfl

/-- `t.target path` fails with `e` if the path cannot be one because of `e`. -/
theorem target_of_ofPath? {path : String} {e : FileError} (h : FileError.ofPath? path = some e) :
    t.target path = .error e := by
  unfold target
  simp only [h]
  rfl

/-- `t.target` asks for a path that ends in a name as `t.free` in `t.directory front`. -/
theorem target_front {front name : List Char} (hfront : IsFront front) (hslash : '/' ∉ name)
    (hname : name ≠ []) (hpath : FileError.ofPath? (String.ofList (front ++ name)) = none) :
    t.target (String.ofList (front ++ name)) =
      t.directory front >>= fun d => t.free d (String.ofList name) := by
  have hfull : (String.ofList name).isEmpty = false := by
    simpa [String.isEmpty_iff] using hname
  -- The name is the last component and has no slash, so the path does not end in one.
  have hlast : (String.ofList (front ++ name)).toList.getLast? ≠ some '/' := by
    rw [String.toList_ofList, List.getLast?_append_of_ne_nil _ hname]
    exact fun h => hslash (List.mem_of_getLast? h)
  unfold target
  simp only [hpath, components_front hfront hslash, List.reverse_append, List.reverse_singleton,
    List.singleton_append, start_front hslash]
  rw [List.dropWhile_cons_of_neg (by simp [hfull])]
  simp only [if_neg hlast, List.reverse_reverse]
  rfl

/-- `t.target path` fails for a path that ends in a slash. -/
theorem target_ne_ok {front : List Char} (hfront : IsFront front) (p : Place) :
    t.target (String.ofList front) ≠ .ok p := by
  cases hpath : FileError.ofPath? (String.ofList front) with
  | some e => simp [target_of_ofPath? hpath]
  | none =>
    intro h
    unfold target at h
    -- A front is not empty here, so it ends in a slash and names no file.
    have hslash : front.getLast? = some '/' := by
      rcases hfront with rfl | ⟨before, rfl⟩
      · exact absurd hpath (by decide)
      · simp
    simp only [hpath, String.toList_ofList, if_pos hslash] at h
    split at h
    · cases h
    · obtain ⟨directory, -, h⟩ := bind_eq_ok_iff.mp h
      obtain ⟨_, -, h⟩ := bind_eq_ok_iff.mp h
      cases h

/-- `t.target path = .ok p` iff the path leads to `p` and no directory is there. -/
theorem target_eq_ok_iff {path : String} {p : Place} :
    t.target path = .ok p ↔ t.locate path = .ok p ∧ t.entry? p ≠ some .directory := by
  obtain ⟨front, name, hpath, hfront, hslash⟩ := exists_front path.toList
  obtain rfl := String.toList_inj.mp (hpath.trans String.toList_ofList.symm)
  rw [locate_front_iff hfront hslash]
  -- A path without a last name leads to a directory, so that neither side holds.
  by_cases hname : name = []
  · subst hname
    rw [List.append_nil]
    refine iff_of_false (target_ne_ok hfront p) ?_
    rintro ⟨⟨-, d, -, henter⟩, hfree⟩
    obtain ⟨hdirectory, -, rfl⟩ := enter_eq_ok_iff.mp henter
    exact hfree hdirectory
  · cases herror : FileError.ofPath? (String.ofList (front ++ name)) with
    | some e =>
      rw [target_of_ofPath? herror]
      simp
    | none =>
      rw [target_front hfront hslash hname herror, bind_eq_ok_iff]
      simp only [free_eq_ok_iff, true_and]
      constructor
      · rintro ⟨d, hd, henter, hfree⟩
        exact ⟨⟨d, hd, henter⟩, hfree⟩
      · rintro ⟨⟨d, hd, henter⟩, hfree⟩
        exact ⟨d, hd, henter, hfree⟩

/-! ### Writing -/

/-- `t.Replaces path bytes t' p` relates a tree before and after `bytes` are written to the file at
    `path`, which is at the place `p`. -/
structure Replaces (t : FileTree workingDirectory) (path : String) (bytes : ByteArray)
    (t' : FileTree workingDirectory) (p : Place) : Prop where
  /-- The path leads to the file, and every path leads where it led. -/
  place : t.locate path = .ok p
  locate (other : String) (q : Place) : t'.locate other = .ok q ↔ t.locate other = .ok q
  /-- This file has the contents that were written, and all others have what they had. -/
  file? (q : Place) : t'.file? q = if q = p then some bytes else t.file? q
  /-- By every path that leads to it the file is read as it was written. -/
  read_same (other : String) : t.locate other = .ok p → t'.read other = .ok bytes
  /-- By any other path the same is read as before. -/
  read_other (other : String) : t.locate other ≠ .ok p → ∀ contents,
    t'.read other = .ok contents ↔ t.read other = .ok contents

/-- A write that succeeds replaces one file: `t.Replaces path bytes t' p` for the place `p` of
    `path`. -/
theorem replaces_of_write {path : String} {bytes : ByteArray} {t' : FileTree workingDirectory}
    (h : t.write path bytes = .ok t') : ∃ p, t.Replaces path bytes t' p := by
  unfold write at h
  obtain ⟨p, htarget, rfl⟩ := map_eq_ok_iff.mp h
  obtain ⟨hlocate, hfree⟩ := target_eq_ok_iff.mp htarget
  -- The place lies in directories that stay, so setting the file moves no other path.
  have hopens := opens_of_locate hlocate
  have hread := @read_set_iff _ t p bytes hopens hfree
  refine ⟨p, hlocate, locate_set_iff hopens hfree, file?_set t p bytes, ?_, ?_⟩
  · intro other hother
    rw [hread, if_pos hother]
  · intro other hother contents
    rw [hread, if_neg hother]

end FileTree

end Straightline
