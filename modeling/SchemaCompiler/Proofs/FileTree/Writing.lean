import SchemaCompiler.Proofs.FileTree.View
import SchemaCompiler.Proofs.Text.Splitting

/-!
# What writing does to a file tree

Making directories adds directories and changes nothing else, whether it goes well or not.  Writing
a file that goes well puts the file where its path leads afterwards; one that is refused changes
nothing.

* `MakesDirectories`, `makeDirectories_makes` — one tree comes from another by making directories;
* `Writes`, `exists_of_write` — a file was written, and everything else stands as before;
* `read_of_find?` — a file that is read as a text has a line feed for every line end;
* `locate_joinPath`, `write_joinPath` — the path of a name in a directory leads to the entry of that
  name, and a file can be written there.
-/

namespace SchemaCompiler

/-! ### Paths -/

theorem pathParts_ne_nil (path : String) : pathParts path ≠ [] := by
  simp [pathParts, Text.splitAt_ne_nil]

theorem pathParts_append_slash (front last : String) (h : '/' ∉ last.toList) :
    pathParts (front ++ "/" ++ last) = pathParts front ++ [last] := by
  have hlist : (front ++ "/" ++ last).toList = front.toList ++ '/' :: last.toList := by simp
  simp [pathParts, hlist, Text.splitAt_append_mark, Text.splitAt_of_notMem h]

/-- A path that ends with a slash is one without it and the slash. -/
theorem exists_of_getLast?_slash {path : String} (h : path.toList.getLast? = some '/') :
    ∃ front : String, path = front ++ "/" := by
  obtain ⟨cs, hcs⟩ := List.getLast?_eq_some_iff.1 h
  exact ⟨String.ofList cs, String.toList_inj.1 (by simp [hcs])⟩

namespace FileTree

variable {tree before middle after : FileTree}

theorem trimSlashes_of_getLast? {path : String} (h : path.toList.getLast? ≠ some '/') :
    trimSlashes path = path := by
  have hreverse : path.toList.reverse.dropWhile (· == '/') = path.toList.reverse := by
    rw [← List.head?_reverse] at h
    cases hcs : path.toList.reverse with
    | nil => rfl
    | cons c cs =>
      rw [hcs, List.head?_cons] at h
      have hc : (c == '/') = false := by
        rw [beq_eq_false_iff_ne]
        intro heq
        exact h (by rw [heq])
      rw [List.dropWhile_cons, hc]
      rfl
  rw [trimSlashes, hreverse, List.reverse_reverse, String.ofList_toList]

/-- Where a path leads without its last part: a directory. -/
theorem of_locateParent {path : String} {place : Place} {last : String}
    (h : tree.locateParent path = .ok (place, last)) :
    path.utf8ByteSize ≤ longestPath ∧
      tree.follow (startOf path) (pathParts path).dropLast = .ok place ∧
      tree.at? place = some .directory ∧ last = (pathParts path).getLastD "" ∧
      last.utf8ByteSize ≤ longestName := by
  unfold locateParent at h
  simp only [Bind.bind, Except.bind, pure, Except.pure] at h
  split at h
  next => exact nomatch h
  next hshort =>
    split at h
    next => exact nomatch h
    next place' hfollow =>
      split at h
      next entries hnode =>
        split at h
        next => exact nomatch h
        next hname =>
          obtain ⟨rfl, rfl⟩ := Prod.mk.inj (Except.ok.inj h)
          exact ⟨Nat.not_lt.1 hshort, hfollow, at?_eq_directory.2 ⟨entries, hnode⟩, rfl,
            Nat.not_lt.1 hname⟩
      next => exact nomatch h
      next => exact nomatch h

/-! ### Making directories -/

/-- One tree comes from another by making directories where nothing stood. -/
inductive MakesDirectories (before : FileTree) : FileTree → Prop
  | refl : MakesDirectories before before
  | make {middle : FileTree} {place : Place} {name : String} :
    MakesDirectories before middle → middle.at? place = some .directory →
    middle.at? (place.child name) = none →
    MakesDirectories before (middle.put (place.child name) (.directory []))

namespace MakesDirectories

theorem trans (h : MakesDirectories before middle) (h' : MakesDirectories middle after) :
    MakesDirectories before after := by
  induction h' with
  | refl => exact h
  | make _ hparent hnew ih => exact ih.make hparent hnew

/-- Everything stands as before, but for directories where nothing stood. -/
theorem at?_eq (h : MakesDirectories before after) (q : Place) :
    after.at? q = before.at? q ∨ before.at? q = none ∧ after.at? q = some .directory := by
  induction h with
  | refl => exact .inl rfl
  | @make middle place name _ hparent hnew ih =>
    have hold : middle.at? (place.child name) ≠ some .directory := by
      rw [hnew]
      exact nofun
    rw [at?_put rfl hparent hold]
    by_cases hq : q = place.child name
    · subst hq
      rw [hnew] at ih
      refine .inr ⟨?_, if_pos rfl⟩
      rcases ih with h | h
      · exact h.symm
      · exact nomatch h.2
    · rw [if_neg hq]
      exact ih

/-- All files are as they were. -/
theorem file?_eq (h : MakesDirectories before after) (q : Place) :
    after.file? q = before.file? q := by
  rcases h.at?_eq q with heq | ⟨hold, hnew⟩
  · exact file?_congr heq
  · rw [file?_eq_none.2 (.inl hold), file?_eq_none.2 (.inr hnew)]

theorem distinct (h : MakesDirectories before after) (hdistinct : before.Distinct) :
    after.Distinct := by
  induction h with
  | refl => exact hdistinct
  | make _ _ _ ih => exact ih.put _ rfl

theorem toExtends (h : MakesDirectories before after) : Extends before after where
  directory hdir := by
    rename_i place
    rcases h.at?_eq place with heq | hnew
    · rw [heq, hdir]
    · exact hnew.2
  file hfile := by
    rename_i place content
    rcases h.at?_eq place with heq | hnew
    · exact ⟨content, by rw [heq, hfile]⟩
    · rw [hnew.1] at hfile
      exact nomatch hfile

end MakesDirectories

theorem makeDirectory_makes (tree : FileTree) (path : String) :
    tree.MakesDirectories (tree.makeDirectory path).1 := by
  unfold makeDirectory
  split
  · exact .refl
  · split
    · exact .refl
    · split
      · exact .refl
      next place name hparent =>
        split
        · split <;> exact .refl
        · split
          · exact .refl
          next hnone =>
            exact .make .refl (of_locateParent hparent).2.2.1 (at?_eq_none.2 hnone)

theorem ensureDirectory_makes (tree : FileTree) (path : String) :
    tree.MakesDirectories (tree.ensureDirectory path).1 := by
  have hfirst := makeDirectory_makes tree path
  unfold ensureDirectory
  split
  next t e heq =>
    rw [heq] at hfirst
    split <;> exact hfirst
  next => exact hfirst

theorem makeDirectoriesUpTo_makes (fuel : Nat) (tree : FileTree) (path : String) :
    tree.MakesDirectories (makeDirectoriesUpTo fuel tree path).1 := by
  induction fuel generalizing tree path with
  | zero => exact makeDirectory_makes tree path
  | succ fuel ih =>
    unfold makeDirectoriesUpTo
    simp only
    generalize (if (splitPath path).2 = "" then splitPath (splitPath path).1
      else ((splitPath path).1, (splitPath path).2)) = parts
    split
    · -- The last directory is made in the tree in which those above it have been made.
      have habove := ih tree parts.1
      split
      next t heq =>
        rw [heq] at habove
        split
        · exact habove
        · exact habove.trans (ensureDirectory_makes t path)
      next t p heq =>
        rw [heq] at habove
        split
        · exact habove
        · exact habove.trans (ensureDirectory_makes t path)
      next => exact habove
    · exact ensureDirectory_makes tree path

theorem makeDirectories_makes (tree : FileTree) (path : String) :
    tree.MakesDirectories (tree.makeDirectories path).1 :=
  makeDirectoriesUpTo_makes _ tree path

/-! ### Writing files -/

/-- A file was written at a place, and everything else stands as before. -/
structure Writes (before after : FileTree) (place : Place) (content : FileContent) : Prop where
  old : before.at? place ≠ some .directory
  at?_eq : ∀ q, after.at? q = if q = place then some (.file content) else before.at? q

namespace Writes

variable {place : Place} {content : FileContent} (h : Writes before after place content)
include h

theorem at?_self : after.at? place = some (.file content) := by
  rw [h.at?_eq, if_pos rfl]

theorem at?_of_ne {q : Place} (hq : q ≠ place) : after.at? q = before.at? q := by
  rw [h.at?_eq, if_neg hq]

theorem toExtends : Extends before after where
  directory hdir := by
    rename_i q
    have hne : q ≠ place := by
      intro heq
      exact h.old (heq ▸ hdir)
    rw [h.at?_of_ne hne, hdir]
  file hfile := by
    rename_i q old
    by_cases hq : q = place
    · exact ⟨content, hq ▸ h.at?_self⟩
    · exact ⟨old, by rw [h.at?_of_ne hq, hfile]⟩

end Writes

/-- A file was written at a place, for which directories were made; all other files are as they
were. -/
structure Stores (before after : FileTree) (place : Place) (content : FileContent) : Prop where
  written : ∃ middle, MakesDirectories before middle ∧ Writes middle after place content

namespace Stores

variable {place : Place} {content : FileContent} (h : Stores before after place content)
include h

theorem toExtends : Extends before after := by
  obtain ⟨middle, hmakes, hwrites⟩ := h.written
  exact hmakes.toExtends.trans hwrites.toExtends

theorem at?_self : after.at? place = some (.file content) := by
  obtain ⟨middle, -, hwrites⟩ := h.written
  exact hwrites.at?_self

theorem file?_eq (q : Place) :
    after.file? q = if q = place then some content else before.file? q := by
  obtain ⟨middle, hmakes, hwrites⟩ := h.written
  by_cases hq : q = place
  · rw [if_pos hq, hq]
    exact file?_eq_some.2 hwrites.at?_self
  · rw [if_neg hq, file?_congr (hwrites.at?_of_ne hq), hmakes.file?_eq]

end Stores

/-- Writing to a path is refused, whatever is to be written, or puts a file into a directory. -/
theorem write_cases (tree : FileTree) (path : String) :
    (∃ fault, ∀ content, tree.write path content = (tree, .error fault)) ∨
      ∃ parent last, '\x00' ∉ path.toList ∧ path ≠ "" ∧
        tree.locateParent path = .ok (parent, last) ∧ isDots last = false ∧
        tree.at? (parent.child last) ≠ some .directory ∧
        ∀ content, tree.write path content =
          (tree.put (parent.child last) (.file content), .ok ()) := by
  by_cases hnull : path.toList.contains '\x00' = true
  · left
    exact ⟨.misuse .wrongValue, fun content => by rw [write, if_pos hnull]⟩
  by_cases hempty : path = ""
  · left
    exact ⟨.file ⟨.noEntry, path⟩, fun content => by
      rw [write, if_neg hnull, if_pos hempty]; rfl⟩
  cases hparent : tree.locateParent (trimSlashes path) with
  | error refusal =>
    left
    exact ⟨.file ⟨refusal, path⟩, fun content => by
      rw [write, if_neg hnull, if_neg hempty, hparent]; rfl⟩
  | ok found =>
    obtain ⟨parent, last⟩ := found
    by_cases hdots : isDots last = true
    · left
      cases hlocate : tree.locate path with
      | error refusal =>
        exact ⟨.file ⟨refusal, path⟩, fun content => by
          simp only [write, if_neg hnull, if_neg hempty, hparent, hdots, if_true, hlocate]; rfl⟩
      | ok place =>
        exact ⟨.file ⟨.isDirectory, path⟩, fun content => by
          simp only [write, if_neg hnull, if_neg hempty, hparent, hdots, if_true, hlocate]; rfl⟩
    by_cases hslash : path.toList.getLast? = some '/'
    · left
      exact ⟨.file ⟨.isDirectory, path⟩, fun content => by
        simp only [write, if_neg hnull, if_neg hempty, hparent, if_neg hdots, if_pos hslash]; rfl⟩
    by_cases hold : tree.at? (parent.child last) = some .directory
    · left
      obtain ⟨entries, hentries⟩ := at?_eq_directory.1 hold
      exact ⟨.file ⟨.isDirectory, path⟩, fun content => by
        simp only [write, if_neg hnull, if_neg hempty, hparent, if_neg hdots, if_neg hslash,
          hentries]; rfl⟩
    right
    refine ⟨parent, last, by simpa using hnull, hempty, ?_, by simpa using hdots, hold, ?_⟩
    · rw [← hparent, trimSlashes_of_getLast? hslash]
    · intro content
      simp only [write, if_neg hnull, if_neg hempty, hparent, if_neg hdots, if_neg hslash]
      split
      next entries hentries => exact absurd (at?_eq_directory.2 ⟨entries, hentries⟩) hold
      next => rfl

/-- **A file that is written stands where its path leads.** -/
theorem exists_of_write {path : String} {content : FileContent}
    (h : tree.write path content = (after, .ok ())) :
    '\x00' ∉ path.toList ∧
      ∃ place, after.locate path = .ok place ∧ tree.Writes after place content := by
  rcases tree.write_cases path with ⟨fault, hrefused⟩ |
    ⟨parent, last, hnull, hne, hparent, hdots, hold, hput⟩
  · rw [hrefused content] at h
    exact nomatch (Prod.mk.inj h).2
  · obtain ⟨hshort, hfollow, hdir, hlast, hname⟩ := of_locateParent hparent
    have hafter : tree.put (parent.child last) (.file content) = after :=
      (Prod.mk.inj ((hput content).symm.trans h)).1
    have hwrites : tree.Writes after (parent.child last) content := by
      refine ⟨hold, fun q => ?_⟩
      rw [← hafter, at?_put rfl hdir hold]
      rfl
    -- The last part of the path leads on to the new file.
    have hstep : after.follow parent [last] = .ok (parent.child last) := by
      refine follow_cons_eq_ok.2 ⟨hwrites.toExtends.directory hdir, .inr ⟨hname, ?_⟩, ?_⟩
      · rw [hwrites.at?_self]
        rfl
      · rw [step_of_not_isDots hdots]
        rfl
    have hparts : pathParts path = (pathParts path).dropLast ++ [last] := by
      rw [hlast, List.getLastD_eq_getLast?, List.getLast?_eq_some_getLast (pathParts_ne_nil path),
        Option.getD_some, List.dropLast_concat_getLast]
    refine ⟨hnull, parent.child last, ?_, hwrites⟩
    rw [locate, if_neg hne, if_neg (Nat.not_lt.2 hshort), hparts]
    exact follow_append_eq_ok.2 ⟨parent, hwrites.toExtends.follow hfollow, hstep⟩

/-- A file that cannot be written changes nothing. -/
theorem write_of_error {path : String} {content : FileContent} {fault : Fault}
    (h : (tree.write path content).2 = .error fault) : (tree.write path content).1 = tree := by
  rcases tree.write_cases path with ⟨cause, hrefused⟩ | ⟨parent, last, -, -, -, -, -, hput⟩
  · rw [hrefused]
  · rw [hput] at h
    exact nomatch h

theorem Distinct.write (h : tree.Distinct) (path : String) (content : FileContent) :
    (tree.write path content).1.Distinct := by
  rcases tree.write_cases path with ⟨fault, hrefused⟩ | ⟨parent, last, -, -, -, -, -, hput⟩
  · rw [hrefused]
    exact h
  · rw [hput]
    exact h.put _ rfl

/-- Whether a file can be written does not depend on what is written. -/
theorem write_outcome_congr (tree : FileTree) (path : String) (content content' : FileContent) :
    (tree.write path content).2 = (tree.write path content').2 := by
  rcases tree.write_cases path with ⟨fault, hrefused⟩ | ⟨parent, last, -, -, -, -, -, hput⟩
  · rw [hrefused, hrefused]
  · rw [hput, hput]

/-! ### Names in a directory -/

section Names

variable {directory name : String} (hdirectory : directory ≠ "") (hslash : '/' ∉ name.toList)
include hdirectory

theorem startOf_joinPath (name : String) : startOf (joinPath directory name) = startOf directory := by
  have hhead : (joinPath directory name).toList.head? = directory.toList.head? := by
    obtain ⟨c, cs, hcs⟩ := List.exists_cons_of_ne_nil (l := directory.toList)
      (by simpa using hdirectory)
    unfold joinPath
    split <;> simp [hcs]
  rw [startOf, startOf, hhead]

include hslash

/-- The path of a name in a directory ends with the name, and what stands before it leads to where
the directory is. -/
theorem exists_pathParts_joinPath :
    ∃ front, pathParts (joinPath directory name) = front ++ [name] ∧
      ∀ (tree : FileTree) (parent : Place), tree.at? parent = some .directory →
        (tree.follow (startOf directory) front = .ok parent ↔
          tree.follow (startOf directory) (pathParts directory) = .ok parent) := by
  by_cases hlast : directory.toList.getLast? = some '/'
  · obtain ⟨front, rfl⟩ := exists_of_getLast?_slash hlast
    have hself := pathParts_append_slash front "" (by simp)
    rw [String.append_empty] at hself
    refine ⟨pathParts front, ?_, fun tree parent hdir => ?_⟩
    · rw [joinPath, if_pos (.inl hlast), pathParts_append_slash front name hslash]
    · rw [hself, follow_append_eq_ok]
      constructor
      · intro hparent
        exact ⟨parent, hparent, follow_cons_eq_ok.2 ⟨hdir, .inl rfl, rfl⟩⟩
      · intro hparent
        obtain ⟨mid, hmid, hstay⟩ := hparent
        obtain ⟨-, -, hsame⟩ := follow_cons_eq_ok.1 hstay
        rw [hmid, ← show mid = parent from Except.ok.inj hsame]
  · refine ⟨pathParts directory, ?_, fun _ _ _ => Iff.rfl⟩
    rw [joinPath, if_neg (not_or.2 ⟨hlast, hdirectory⟩), pathParts_append_slash _ _ hslash]

/-- **The path of a name in a directory leads to the entry of that name.** -/
theorem locate_joinPath (hdots : isDots name = false) {place : Place}
    (h : tree.locate (joinPath directory name) = .ok place) :
    ∃ parent, tree.locate directory = .ok parent ∧ tree.at? parent = some .directory ∧
      place = parent.child name := by
  obtain ⟨front, hparts, hfollow⟩ := exists_pathParts_joinPath hdirectory hslash
  have hsize : directory.utf8ByteSize ≤ (joinPath directory name).utf8ByteSize := by
    unfold joinPath
    split
    · simp [String.utf8ByteSize_append]
    · simp [String.utf8ByteSize_append]
      omega
  unfold locate at h
  split at h
  next => exact nomatch h
  next =>
    split at h
    next => exact nomatch h
    next hshort =>
      rw [hparts, startOf_joinPath hdirectory] at h
      obtain ⟨parent, hparent, hname⟩ := follow_append_eq_ok.1 h
      obtain ⟨hdir, -, hself⟩ := follow_cons_eq_ok.1 hname
      rw [step_of_not_isDots hdots] at hself
      refine ⟨parent, ?_, hdir, (Except.ok.inj hself).symm⟩
      rw [locate, if_neg hdirectory, if_neg (by omega)]
      exact (hfollow tree parent hdir).1 hparent

/-- A path without its last part leads to the directory of its last part. -/
theorem locateParent_joinPath {parent : Place} (hparent : tree.locate directory = .ok parent)
    (hdir : tree.at? parent = some .directory) (hname : name.utf8ByteSize ≤ longestName)
    (hshort : (joinPath directory name).utf8ByteSize ≤ longestPath) :
    tree.locateParent (joinPath directory name) = .ok (parent, name) := by
  obtain ⟨front, hparts, hfollow⟩ := exists_pathParts_joinPath hdirectory hslash
  have hfront : tree.follow (startOf directory) front = .ok parent := by
    refine (hfollow tree parent hdir).2 ?_
    unfold locate at hparent
    rw [if_neg hdirectory] at hparent
    split at hparent
    next => exact nomatch hparent
    next => exact hparent
  obtain ⟨entries, hentries⟩ := at?_eq_directory.1 hdir
  simp only [locateParent, hparts, List.dropLast_concat, List.getLastD_concat,
    startOf_joinPath hdirectory, hfront, if_neg (Nat.not_lt.2 hshort),
    if_neg (Nat.not_lt.2 hname), Bind.bind, Except.bind, hentries]
  rfl

omit hdirectory in
/-- The path of a name ends as the name does, so not with a slash. -/
theorem exists_getLast?_joinPath (hne : name ≠ "") :
    ∃ c, (joinPath directory name).toList.getLast? = some c ∧ c ≠ '/' := by
  obtain ⟨before, hpath⟩ : ∃ before, joinPath directory name = before ++ name := by
    unfold joinPath
    split
    · exact ⟨directory, rfl⟩
    · exact ⟨directory ++ "/", rfl⟩
  rcases List.eq_nil_or_concat name.toList with hnil | ⟨cs, c, hconcat⟩
  · exact absurd (String.toList_eq_nil_iff.1 hnil) hne
  · rw [List.concat_eq_append] at hconcat
    refine ⟨c, ?_, ?_⟩
    · rw [hpath, String.toList_append, hconcat, ← List.append_assoc, List.getLast?_concat]
    · rintro rfl
      rw [hconcat] at hslash
      exact hslash (List.mem_append_right _ (List.mem_singleton_self _))

/-- **A name in a directory can be written to**, unless it is too long or a directory has it. -/
theorem write_joinPath (hdots : isDots name = false) {parent : Place}
    (hparent : tree.locate directory = .ok parent)
    (hdir : tree.at? parent = some .directory) (hname : name.utf8ByteSize ≤ longestName)
    (hshort : (joinPath directory name).utf8ByteSize ≤ longestPath)
    (hnull : '\x00' ∉ (joinPath directory name).toList)
    (hfree : tree.at? (parent.child name) ≠ some .directory) (content : FileContent) :
    (tree.write (joinPath directory name) content).2 = .ok () := by
  have hlocated := locateParent_joinPath hdirectory hslash hparent hdir hname hshort
  have hne : name ≠ "" := by
    rintro rfl
    exact absurd hdots (by decide)
  obtain ⟨c, hend, hc⟩ := exists_getLast?_joinPath hslash hne
  have hslashless : (joinPath directory name).toList.getLast? ≠ some '/' := by
    rw [hend]
    exact fun hslashed => hc (Option.some.inj hslashed)
  have hnonempty : joinPath directory name ≠ "" := by
    intro hempty
    rw [hempty] at hend
    exact nomatch hend
  have hcontains : ¬(joinPath directory name).toList.contains '\x00' = true := by simpa using hnull
  rw [write, if_neg hcontains, if_neg hnonempty, trimSlashes_of_getLast? hslashless, hlocated]
  simp only [hdots, Bool.false_eq_true, if_false, if_neg hslashless]
  split
  next entries hentries => exact absurd (at?_eq_directory.2 ⟨entries, hentries⟩) hfree
  next => rfl

end Names

/-- What a path names, where it leads to a file. -/
theorem find?_eq_file_iff {path : String} {place : Place} {content : FileContent}
    (hnull : '\x00' ∉ path.toList) (hlocate : tree.locate path = .ok place) :
    tree.find? path = some (.file content) ↔ tree.file? place = some content := by
  have hcontains : path.toList.contains '\x00' = false := by simpa using hnull
  rw [find?, hcontains, hlocate, file?_eq_some]
  exact at?_eq_file.symm

/-- What is found is read, with line feeds for all line ends. -/
theorem read_of_find? {path text : String} (h : tree.find? path = some (.file (.text text))) :
    tree.read path = .ok (Text.normalizeNewlines text) := by
  rw [find?] at h
  split at h
  next => exact nomatch h
  next =>
    split at h
    next place hplace => simp only [read, hplace, h]
    next => exact nomatch h

end FileTree

/-- Only carriage returns are turned into line feeds. -/
theorem Text.normalizeNewlines_of_notMem {s : String} (h : '\r' ∉ s.toList) :
    normalizeNewlines s = s := by
  have hsame : ∀ cs : List Char, '\r' ∉ cs → normalizeNewlineChars cs = cs := by
    intro cs hcs
    induction cs using normalizeNewlineChars.induct with
    | case1 => rfl
    | case2 cs ih => exact absurd List.mem_cons_self hcs
    | case3 c cs hpair ih =>
      obtain ⟨hc, hrest⟩ := not_or.1 (mt List.mem_cons.2 hcs)
      rw [normalizeNewlineChars.eq_3 c cs hpair, ih hrest, if_neg (Ne.symm hc)]
  rw [normalizeNewlines, hsame _ h, String.ofList_toList]

end SchemaCompiler
