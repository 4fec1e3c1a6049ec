import Mathlib.Data.List.Forall2
import SchemaCompiler.Migration.File
import SchemaCompiler.Proofs.FileTree.Writing
import SchemaCompiler.Proofs.Migration.Stamp
import SchemaCompiler.Proofs.Outcome

/-!
# Creating migrations

What calls for new migrations do to a file tree, one after the other.  A call that fails leaves all
files as they are; one that goes well writes its document to the file that its path leads to, be
there a file already or not.

* `Migration.create_cases` — what one call does;
* `Migration.file?_createAll` — after any calls each file holds what was written to it last;
* `Migration.find?_createAll_iff` — **which documents can be read back after all calls**;
* `Migration.find?_createAll_overwritten` — a document that cannot.
-/

namespace SchemaCompiler

namespace Migration

/-- A call for a new migration. -/
structure Request where
  name : String
  header : Header
  schemas : List Schema

/-- A file is the one that a call in a directory asks for: it is named for the time of the call in
UTC and for the migration, and it holds the document compiled for that time. -/
def IsFor (directory : String) (r : Request) (file : MigrationFile) : Prop :=
  ∃ created document, r.header.created.toUtc = .ok created ∧
    (compileDocument { r.header with created } r.schemas).outcome = .ok document ∧
    file = {
      fileName := created.stamp ++ "_" ++ r.name ++ ".sql"
      path := joinPath directory (created.stamp ++ "_" ++ r.name ++ ".sql")
      name := r.name, timestamp := some created.stamp, content := some document }

variable {tree after : FileTree} {directory : String}

/-! ### One call -/

/-- A document tells its time in UTC, so it does not matter whether it is given so. -/
theorem compileDocument_toUtc {h : Header} {created : Time}
    (hcreated : h.created.toUtc = .ok created) (schemas : List Schema) :
    compileDocument { h with created } schemas = compileDocument h schemas := by
  simp only [compileDocument, hcreated, Time.toUtc_of_toUtc hcreated]

/-- What a new file is to hold: the document, for the time in UTC. -/
theorem outcome_prepare {h : Header} {created : Time} (hcreated : h.created.toUtc = .ok created)
    (schemas : List Schema) :
    (prepare h schemas).outcome = do return (← (compileDocument h schemas).outcome, created) := by
  rw [prepare, Traced.outcome_bind, Traced.outcome_lift, hcreated, ok_bind, Traced.outcome_bind,
    compileDocument_toUtc hcreated]
  rfl

/-- Whether a document can be stored does not depend on what it says. -/
theorem store_outcome_congr (tree : FileTree) (directory path content content' : String) :
    (store tree directory path content).2 = (store tree directory path content').2 := by
  rw [store, store]
  split
  · exact FileTree.write_outcome_congr _ _ _ _
  · rfl

theorem makeDirectories_empty (tree : FileTree) : (tree.makeDirectories "").2 ≠ .ok () := by
  intro h
  exact nomatch h

/-- To store a document either fails and leaves all files as they are, or writes the document to
the file that the path leads to. -/
theorem store_cases (tree : FileTree) (directory path content : String) :
    (∃ fault, (store tree directory path content).2 = .error fault ∧
      tree.MakesDirectories (store tree directory path content).1) ∨
    (store tree directory path content).2 = .ok () ∧ directory ≠ "" ∧ '\x00' ∉ path.toList ∧
      ∃ place, (store tree directory path content).1.locate path = .ok place ∧
        tree.Stores (store tree directory path content).1 place (.text content) := by
  have hmakes := tree.makeDirectories_makes directory
  cases hmade : tree.makeDirectories directory with
  | mk middle made =>
    rw [hmade] at hmakes
    cases made with
    | error fault =>
      left
      rw [store, hmade]
      exact ⟨fault, rfl, hmakes⟩
    | ok =>
      have hstore : store tree directory path content = middle.write path (.text content) := by
        rw [store, hmade]
      rw [hstore]
      cases hwrite : middle.write path (.text content) with
      | mk last written =>
        cases written with
        | error fault =>
          left
          have hsame := FileTree.write_of_error (congrArg Prod.snd hwrite)
          rw [hwrite] at hsame
          exact ⟨fault, rfl, hsame ▸ hmakes⟩
        | ok =>
          right
          obtain ⟨hnull, place, hlocate, hwrites⟩ := FileTree.exists_of_write hwrite
          refine ⟨rfl, ?_, hnull, place, hlocate, ⟨middle, hmakes, hwrites⟩⟩
          rintro rfl
          exact makeDirectories_empty tree (congrArg Prod.snd hmade)

theorem create_of_prepare_error {h : Header} {schemas : List Schema} {fault : Fault}
    (hprepared : (prepare h schemas).outcome = .error fault) (tree : FileTree)
    (directory name : String) :
    (create tree directory name h schemas).1 = tree ∧
      (create tree directory name h schemas).2.outcome = .error fault := by
  rw [create]
  simp only [hprepared, and_self]

section Prepared

variable {h : Header} {schemas : List Schema} {document : String} {created : Time}
variable (hprepared : (prepare h schemas).outcome = .ok (document, created))
include hprepared

theorem tree_create (tree : FileTree) (directory name : String) :
    (create tree directory name h schemas).1 =
      (store tree directory (joinPath directory (created.stamp ++ "_" ++ name ++ ".sql"))
        document).1 := by
  rw [create]
  simp only [hprepared]

theorem create_of_store_ok {tree : FileTree} {directory name : String}
    (hstored : (store tree directory
      (joinPath directory (created.stamp ++ "_" ++ name ++ ".sql")) document).2 = .ok ()) :
    (create tree directory name h schemas).2.outcome = .ok {
      fileName := created.stamp ++ "_" ++ name ++ ".sql"
      path := joinPath directory (created.stamp ++ "_" ++ name ++ ".sql")
      name, timestamp := some created.stamp, content := some document } := by
  rw [create]
  simp only [hprepared]
  rw [hstored, Traced.outcome_bind, hprepared, ok_bind]
  rfl

theorem create_of_store_error {tree : FileTree} {directory name : String} {cause : Fault}
    (hstored : (store tree directory
      (joinPath directory (created.stamp ++ "_" ++ name ++ ".sql")) document).2 = .error cause) :
    ∃ fault, (create tree directory name h schemas).2.outcome = .error fault := by
  rw [create]
  simp only [hprepared]
  rw [hstored, Traced.outcome_bind, hprepared, ok_bind]
  cases cause <;> exact ⟨_, rfl⟩

end Prepared

/-- **What a call does.**  If it fails, all files are as they were; if not, the file that it
returns is the one that was asked for, and the path of the file leads to its document. -/
theorem create_cases (tree : FileTree) (directory : String) (r : Request) :
    (∃ fault, (create tree directory r.name r.header r.schemas).2.outcome = .error fault ∧
      tree.MakesDirectories (create tree directory r.name r.header r.schemas).1) ∨
    ∃ file document place,
      (create tree directory r.name r.header r.schemas).2.outcome = .ok file ∧
      IsFor directory r file ∧ file.content = some document ∧ directory ≠ "" ∧
      '\x00' ∉ file.path.toList ∧
      (create tree directory r.name r.header r.schemas).1.locate file.path = .ok place ∧
      tree.Stores (create tree directory r.name r.header r.schemas).1 place (.text document) := by
  cases hprepared : (prepare r.header r.schemas).outcome with
  | error fault =>
    left
    obtain ⟨htree, hfault⟩ := create_of_prepare_error hprepared tree directory r.name
    refine ⟨fault, hfault, ?_⟩
    rw [htree]
    exact .refl
  | ok prepared =>
    obtain ⟨document, created⟩ := prepared
    rw [tree_create hprepared]
    rcases store_cases tree directory
      (joinPath directory (created.stamp ++ "_" ++ r.name ++ ".sql")) document with
      ⟨cause, hcause, hmakes⟩ | ⟨hok, hdirectory, hnull, place, hlocate, hstores⟩
    · left
      obtain ⟨fault, hfault⟩ := create_of_store_error hprepared hcause
      exact ⟨fault, hfault, hmakes⟩
    · right
      have hfor : r.header.created.toUtc = .ok created ∧
          (compileDocument { r.header with created } r.schemas).outcome = .ok document := by
        rw [prepare, Traced.outcome_bind, bind_eq_ok] at hprepared
        obtain ⟨created', hcreated, hprepared⟩ := hprepared
        rw [Traced.outcome_bind, bind_eq_ok] at hprepared
        obtain ⟨document', hdocument, hprepared⟩ := hprepared
        cases hprepared
        exact ⟨hcreated, hdocument⟩
      exact ⟨_, document, place, create_of_store_ok hprepared hok,
        ⟨created, document, hfor.1, hfor.2, rfl⟩, rfl, hdirectory, hnull, hlocate, hstores⟩

/-! ### Calls one after the other -/

/-- Calls one after the other, each in the tree that the one before has left, and their results. -/
def createAll (directory : String) :
    FileTree → List Request → FileTree × List (Except Fault MigrationFile)
  | tree, [] => (tree, [])
  | tree, r :: requests =>
    let (middle, created) := create tree directory r.name r.header r.schemas
    let (after, results) := createAll directory middle requests
    (after, created.outcome :: results)

/-- The files that calls have returned. -/
def written (results : List (Except Fault MigrationFile)) : List MigrationFile :=
  results.filterMap Except.toOption

/-- The last one of some files that leads to a place. -/
def lastAt (tree : FileTree) (place : Place) (files : List MigrationFile) :
    Option MigrationFile :=
  (files.filter fun f => decide ((tree.locate f.path).toOption = some place)).getLast?

theorem lastAt_eq_none {place : Place} {files : List MigrationFile}
    (h : ∀ f ∈ files, tree.locate f.path ≠ .ok place) : lastAt tree place files = none := by
  rw [lastAt, List.getLast?_eq_none_iff, List.filter_eq_nil_iff]
  intro f hf hlocate
  exact h f hf (toOption_eq_some.1 (by simpa using hlocate))

theorem of_lastAt_eq_some {place : Place} {files : List MigrationFile} {f : MigrationFile}
    (h : lastAt tree place files = some f) : f ∈ files ∧ tree.locate f.path = .ok place := by
  obtain ⟨hmem, hlocate⟩ := List.mem_filter.1 (List.mem_of_getLast? h)
  exact ⟨hmem, toOption_eq_some.1 (by simpa using hlocate)⟩

theorem lastAt_cons (tree : FileTree) (place : Place) (f : MigrationFile)
    (files : List MigrationFile) :
    lastAt tree place (f :: files) = (lastAt tree place files).or
      (if tree.locate f.path = .ok place then some f else none) := by
  rw [lastAt, lastAt, List.filter_cons]
  by_cases h : tree.locate f.path = .ok place
  · rw [if_pos (by simpa using toOption_eq_some.2 h), if_pos h, List.getLast?_cons]
    cases (files.filter fun f => decide ((tree.locate f.path).toOption = some place)).getLast? <;>
      rfl
  · have hnot : (tree.locate f.path).toOption ≠ some place := fun hsome =>
      h (toOption_eq_some.1 hsome)
    rw [if_neg (by simpa using hnot), if_neg h, Option.or_none]

/-- What a file at a place holds after files were written, one after the other, if it held `old`
before. -/
def contentAfter (tree : FileTree) (place : Place) (files : List MigrationFile)
    (old : Option FileContent) : Option FileContent :=
  (lastAt tree place files).elim old fun f => f.content.map .text

theorem createAll_cons (directory : String) (tree : FileTree) (r : Request)
    (requests : List Request) :
    createAll directory tree (r :: requests) =
      ((createAll directory (create tree directory r.name r.header r.schemas).1 requests).1,
        (create tree directory r.name r.header r.schemas).2.outcome ::
          (createAll directory (create tree directory r.name r.header r.schemas).1 requests).2) :=
  rfl

theorem create_extends (tree : FileTree) (directory : String) (r : Request) :
    tree.Extends (create tree directory r.name r.header r.schemas).1 := by
  rcases create_cases tree directory r with ⟨_, _, hmakes⟩ | ⟨_, _, _, _, _, _, _, _, _, hstores⟩
  · exact hmakes.toExtends
  · exact hstores.toExtends

theorem createAll_extends (directory : String) (tree : FileTree) (requests : List Request) :
    tree.Extends (createAll directory tree requests).1 := by
  induction requests generalizing tree with
  | nil => exact .refl tree
  | cons r requests ih => exact (create_extends tree directory r).trans (ih _)

/-- **After any calls each file holds what was written to it last**, and what it held before if
nothing was. -/
theorem file?_createAll (directory : String) (tree : FileTree) (requests : List Request)
    (place : Place) :
    (createAll directory tree requests).1.file? place =
      contentAfter (createAll directory tree requests).1 place
        (written (createAll directory tree requests).2) (tree.file? place) := by
  induction requests generalizing tree with
  | nil => rfl
  | cons r requests ih =>
    rw [createAll_cons]
    simp only
    rw [ih]
    have hextends := createAll_extends directory (create tree directory r.name r.header r.schemas).1
      requests
    rcases create_cases tree directory r with ⟨fault, hfault, hmakes⟩ |
      ⟨file, document, target, hfile, -, hdocument, -, -, hlocate, hstores⟩
    · rw [hmakes.file?_eq, hfault]
      rfl
    · have htarget := hextends.locate hlocate
      rw [hfile, hstores.file?_eq]
      show contentAfter _ place _ _ = contentAfter _ place (file :: written _) _
      rw [contentAfter, contentAfter, lastAt_cons]
      cases lastAt _ place _ with
      | some f => rfl
      | none =>
        rw [Option.none_or, htarget]
        by_cases hplace : place = target
        · rw [if_pos hplace, if_pos (by rw [hplace]), Option.elim_none, Option.elim_some, hdocument]
          rfl
        · have hne : (Except.ok target : Except FileRefusal Place) ≠ .ok place := fun h =>
            hplace (Except.ok.inj h).symm
          rw [if_neg hplace, if_neg hne]

/-- What the calls return, one by one: a file that is returned is the one that was asked for, and
its path leads somewhere after all calls. -/
theorem results_createAll (directory : String) (tree : FileTree) (requests : List Request) :
    List.Forall₂ (fun r result => ∀ file, result = .ok file →
        IsFor directory r file ∧ directory ≠ "" ∧ '\x00' ∉ file.path.toList ∧
        ∃ place, (createAll directory tree requests).1.locate file.path = .ok place)
      requests (createAll directory tree requests).2 := by
  induction requests generalizing tree with
  | nil => exact .nil
  | cons r requests ih =>
    rw [createAll_cons]
    refine .cons ?_ (ih _)
    intro f hf
    rcases create_cases tree directory r with ⟨fault, hfault, -⟩ |
      ⟨file, document, target, hfile, hfor, -, hdirectory, hnull, hlocate, -⟩
    · rw [hfault] at hf
      exact nomatch hf
    · rw [hfile] at hf
      cases hf
      exact ⟨hfor, hdirectory, hnull, target, (createAll_extends directory _ requests).locate hlocate⟩

theorem exists_of_mem_written {requests : List Request} {file : MigrationFile}
    (h : file ∈ written (createAll directory tree requests).2) :
    ∃ r ∈ requests, IsFor directory r file ∧ directory ≠ "" ∧ '\x00' ∉ file.path.toList ∧
      ∃ place, (createAll directory tree requests).1.locate file.path = .ok place := by
  obtain ⟨result, hresult, hfile⟩ := List.mem_filterMap.1 h
  obtain ⟨r, hr, hspec⟩ := exists_of_mem_right (results_createAll directory tree requests) hresult
  exact ⟨r, hr, hspec file (toOption_eq_some.1 hfile)⟩

/-! ### Which calls write to the same file -/

/-- What stands before the first mark and what stands after it. -/
theorem append_mark_inj {mark : Char} {before before' after after' : List Char}
    (h : mark ∉ before) (h' : mark ∉ before')
    (heq : before ++ mark :: after = before' ++ mark :: after') :
    before = before' ∧ after = after' := by
  induction before generalizing before' with
  | nil =>
    cases before' with
    | nil => exact ⟨rfl, (List.cons.inj heq).2⟩
    | cons c cs => exact absurd (List.mem_cons.2 (.inl (List.cons.inj heq).1)) h'
  | cons c cs ih =>
    cases before' with
    | nil => exact absurd (List.mem_cons.2 (.inl (List.cons.inj heq).1.symm)) h
    | cons c' cs' =>
      obtain ⟨hc, hrest⟩ := List.cons.inj heq
      obtain ⟨hcs, hafter⟩ := ih (fun hmem => h (List.mem_cons_of_mem c hmem))
        (fun hmem => h' (List.mem_cons_of_mem c' hmem)) hrest
      exact ⟨by rw [hc, hcs], hafter⟩

theorem fileName_toList (stamp name : String) :
    (stamp ++ "_" ++ name ++ ".sql").toList = stamp.toList ++ '_' :: (name.toList ++ ".sql".toList)
    := by
  simp

theorem fileName_inj {t u : Time} {name name' : String} :
    t.stamp ++ "_" ++ name ++ ".sql" = u.stamp ++ "_" ++ name' ++ ".sql" ↔
      t.stamp = u.stamp ∧ name = name' := by
  constructor
  · intro h
    have hlist := congrArg String.toList h
    rw [fileName_toList, fileName_toList] at hlist
    -- A stamp ends before the first low line.
    obtain ⟨hstamp, hname⟩ := append_mark_inj (Time.notMem_stamp rfl t) (Time.notMem_stamp rfl u)
      hlist
    exact ⟨String.toList_inj.1 hstamp, String.toList_inj.1 (List.append_cancel_right hname)⟩
  · rintro ⟨hstamp, rfl⟩
    rw [hstamp]

theorem slash_notMem_fileName (t : Time) {name : String} (h : '/' ∉ name.toList) :
    '/' ∉ (t.stamp ++ "_" ++ name ++ ".sql").toList := by
  rw [fileName_toList]
  simp [Time.notMem_stamp (c := '/') rfl t, h]

theorem isDots_fileName (stamp name : String) :
    FileTree.isDots (stamp ++ "_" ++ name ++ ".sql") = false := by
  rw [Bool.eq_false_iff]
  intro hdots
  have hmem : '_' ∈ (stamp ++ "_" ++ name ++ ".sql").toList := by
    rw [fileName_toList]
    exact List.mem_append_right _ List.mem_cons_self
  rcases FileTree.isDots_iff.1 hdots with h | h | h
  all_goals
    rw [h] at hmem
    exact absurd hmem (by decide)

/-- The file of a name without slashes stands in the directory of the call. -/
theorem IsFor.locate {r : Request} {file : MigrationFile} {place : Place}
    (hfor : IsFor directory r file) (hdirectory : directory ≠ "") (hslash : '/' ∉ r.name.toList)
    (hplace : tree.locate file.path = .ok place) :
    ∃ parent, tree.locate directory = .ok parent ∧ tree.at? parent = some .directory ∧
      place = parent.child file.fileName := by
  obtain ⟨created, document, -, -, rfl⟩ := hfor
  exact FileTree.locate_joinPath hdirectory (slash_notMem_fileName created hslash)
    (isDots_fileName created.stamp r.name) hplace

theorem IsFor.fileName_eq_iff {r r' : Request} {file file' : MigrationFile}
    (hfor : IsFor directory r file) (hfor' : IsFor directory r' file') :
    file.fileName = file'.fileName ↔ file.timestamp = file'.timestamp ∧ file.name = file'.name := by
  obtain ⟨created, document, -, -, rfl⟩ := hfor
  obtain ⟨created', document', -, -, rfl⟩ := hfor'
  show _ ↔ some created.stamp = some created'.stamp ∧ r.name = r'.name
  rw [Option.some.injEq]
  exact fileName_inj

/-- Two files of names without slashes are one if they have the same name and the same time. -/
theorem IsFor.locate_eq_iff {r r' : Request} {file file' : MigrationFile} {place place' : Place}
    (hfor : IsFor directory r file) (hfor' : IsFor directory r' file') (hdirectory : directory ≠ "")
    (hslash : '/' ∉ r.name.toList) (hslash' : '/' ∉ r'.name.toList)
    (hplace : tree.locate file.path = .ok place) (hplace' : tree.locate file'.path = .ok place') :
    place = place' ↔ file.timestamp = file'.timestamp ∧ file.name = file'.name := by
  obtain ⟨parent, hparent, -, rfl⟩ := hfor.locate hdirectory hslash hplace
  obtain ⟨parent', hparent', -, rfl⟩ := hfor'.locate hdirectory hslash' hplace'
  rw [hparent] at hparent'
  cases hparent'
  rw [← hfor.fileName_eq_iff hfor']
  constructor
  · intro h
    exact (List.cons.inj (congrArg Place.names h)).1
  · intro h
    rw [h]

/-! ### What can be read back -/

theorem lastAt_append (tree : FileTree) (place : Place) (files more : List MigrationFile) :
    lastAt tree place (files ++ more) = (lastAt tree place more).or (lastAt tree place files) := by
  rw [lastAt, lastAt, lastAt, List.filter_append, List.getLast?_append]

theorem written_append_cons (earlier later : List (Except Fault MigrationFile))
    (file : MigrationFile) :
    written (earlier ++ .ok file :: later) = written earlier ++ file :: written later := by
  rw [written, List.filterMap_append]
  rfl

/-- A file that was written holds its document unless one that was written later to the same place
holds another. -/
theorem contentAfter_append_cons {place : Place} {file : MigrationFile} {document : String}
    (hcontent : file.content = some document) (hplace : tree.locate file.path = .ok place)
    (earlier later : List MigrationFile) (old : Option FileContent) :
    contentAfter tree place (earlier ++ file :: later) old = some (.text document) ↔
      ∀ last, lastAt tree place later = some last → last.content = some document := by
  rw [contentAfter, lastAt_append, lastAt_cons, if_pos hplace]
  cases lastAt tree place later with
  | none => simp [hcontent]
  | some last => simp [Option.map_eq_some_iff]

/-- A document that a call has written can be read back just if no other one was written to its
place last. -/
theorem find?_eq_iff_of_split {requests : List Request}
    {earlier later : List (Except Fault MigrationFile)} {file : MigrationFile}
    (hsplit : (createAll directory tree requests).2 = earlier ++ .ok file :: later) :
    ∃ document place, file.content = some document ∧
      (createAll directory tree requests).1.locate file.path = .ok place ∧
      ((createAll directory tree requests).1.find? file.path = some (.file (.text document)) ↔
        ∀ last, lastAt (createAll directory tree requests).1 place (written later) = some last →
          last.content = some document) := by
  have hwritten : written (createAll directory tree requests).2 =
      written earlier ++ file :: written later := by
    rw [hsplit, written_append_cons]
  have hmem : file ∈ written (createAll directory tree requests).2 := by
    rw [hwritten]
    exact List.mem_append_right _ List.mem_cons_self
  obtain ⟨r, -, ⟨created, document, -, -, hfile⟩, -, hnull, place, hplace⟩ :=
    exists_of_mem_written hmem
  have hcontent : file.content = some document := by rw [hfile]
  refine ⟨document, place, hcontent, hplace, ?_⟩
  rw [FileTree.find?_eq_file_iff hnull hplace, file?_createAll, hwritten]
  exact contentAfter_append_cons hcontent hplace _ _ _

/-- **Which documents can be read back after all calls.**  No call changes a file that it does not
write to.  The document of a call that went well can be read back from its path just if the last of
the later calls that wrote to the same place, if any, wrote the same document.  Two calls for names
without slashes write to the same place just if they have the same name within the same second. -/
theorem find?_createAll_iff (directory : String) (tree : FileTree) (requests : List Request) :
    let run := createAll directory tree requests
    (∀ place, (∀ file ∈ written run.2, run.1.locate file.path ≠ .ok place) →
      run.1.file? place = tree.file? place) ∧
    (∀ earlier file later, run.2 = earlier ++ .ok file :: later →
      ∃ document place, file.content = some document ∧ run.1.locate file.path = .ok place ∧
        (run.1.find? file.path = some (.file (.text document)) ↔
          ∀ last, lastAt run.1 place (written later) = some last →
            last.content = some document)) ∧
    ∀ file ∈ written run.2, ∀ other ∈ written run.2,
      '/' ∉ file.name.toList → '/' ∉ other.name.toList →
      (run.1.locate file.path = run.1.locate other.path ↔
        file.timestamp = other.timestamp ∧ file.name = other.name) := by
  intro run
  refine ⟨?_, ?_, ?_⟩
  · intro place hplace
    show run.1.file? place = _
    rw [file?_createAll, contentAfter, lastAt_eq_none hplace]
    rfl
  · intro earlier file later hsplit
    exact find?_eq_iff_of_split hsplit
  · intro file hfile other hother hslash hslash'
    obtain ⟨r, -, hfor, hdirectory, -, place, hplace⟩ := exists_of_mem_written hfile
    obtain ⟨r', -, hfor', -, -, place', hplace'⟩ := exists_of_mem_written hother
    have hname : file.name = r.name := by
      obtain ⟨_, _, -, -, rfl⟩ := hfor
      rfl
    have hname' : other.name = r'.name := by
      obtain ⟨_, _, -, -, rfl⟩ := hfor'
      rfl
    rw [hname] at hslash
    rw [hname'] at hslash'
    rw [show run.1.locate file.path = .ok place from hplace,
      show run.1.locate other.path = .ok place' from hplace', Except.ok.injEq]
    exact hfor.locate_eq_iff hfor' hdirectory hslash hslash' hplace hplace'

/-- Half past twelve on the first of May 2024. -/
def halfPastTwelve : Time where
  year := 2024
  month := 5
  day := 1
  hour := 12
  minute := 30
  second := 0
  microsecond := 0
  zone := .fixed 0

/-- A call for a migration with one view. -/
def viewRequest (view : String) : Request where
  name := "init"
  header := {
    description := .text "Views", created := halfPastTwelve, toolName := .text "Tenjin Framework" }
  schemas := [{ views := [{ name := .text view, query := .text "SELECT 1" }] }]

/-- The document that such a call writes. -/
def viewDocument (view : String) : String :=
  "-- Views\n-- Created: 2024-05-01T12:30:00+00:00\n-- Generated by: Tenjin Framework\n\n" ++
    "CREATE VIEW " ++ view ++ " AS\nSELECT 1;\n"

/-- The file that such a call returns. -/
def viewFile (view : String) : MigrationFile where
  fileName := "20240501123000_init.sql"
  path := "m/20240501123000_init.sql"
  name := "init"
  timestamp := some "20240501123000"
  content := some (viewDocument view)

theorem results_twoViews :
    (createAll "m" {} [viewRequest "a", viewRequest "b"]).2 = [.ok (viewFile "a"), .ok (viewFile "b")]
    := by
  rfl

/-- **A document that is lost.**  Two calls go well and return one path with two documents, and only
the second document can be read back from it. -/
theorem find?_createAll_overwritten :
    let run := createAll "m" {} [viewRequest "a", viewRequest "b"]
    run.2 = [.ok (viewFile "a"), .ok (viewFile "b")] ∧
    (viewFile "a").path = (viewFile "b").path ∧
    run.1.find? (viewFile "a").path = some (.file (.text (viewDocument "b"))) ∧
    run.1.find? (viewFile "a").path ≠ some (.file (.text (viewDocument "a"))) := by
  have hfind : (createAll "m" {} [viewRequest "a", viewRequest "b"]).1.find? (viewFile "a").path =
      some (.file (.text (viewDocument "b"))) := by
    rfl
  refine ⟨results_twoViews, rfl, hfind, ?_⟩
  rw [hfind]
  intro hsame
  have hviews : viewDocument "b" = viewDocument "a" :=
    FileContent.text.inj (FileNode.file.inj (Option.some.inj hsame))
  exact absurd hviews (by decide)

/-- The two calls write to one place, the file of the later one can be read back, and nothing else
has changed. -/
theorem find?_twoViews :
    let run := createAll "m" {} [viewRequest "a", viewRequest "b"]
    run.1.file? ⟨.working, ["notes.txt"]⟩ = none ∧
    run.1.find? (viewFile "b").path = some (.file (.text (viewDocument "b"))) ∧
    run.1.locate (viewFile "a").path = run.1.locate (viewFile "b").path := by
  intro run
  obtain ⟨hframe, hread, hsame⟩ :=
    find?_createAll_iff "m" {} [viewRequest "a", viewRequest "b"]
  have hwritten : written run.2 = [viewFile "a", viewFile "b"] := by
    rw [show run.2 = _ from results_twoViews]
    rfl
  have hlocate : ∀ file ∈ written run.2,
      run.1.locate file.path = .ok ⟨.working, ["20240501123000_init.sql", "m"]⟩ := by
    rw [hwritten]
    intro file hfile
    rcases List.mem_pair.1 hfile with rfl | rfl <;> rfl
  refine ⟨hframe ⟨.working, ["notes.txt"]⟩ ?_, ?_, ?_⟩
  · intro file hfile
    rw [show run.1.locate file.path = _ from hlocate file hfile]
    decide
  · obtain ⟨document, place, hdocument, -, hiff⟩ :=
      hread [.ok (viewFile "a")] (viewFile "b") [] results_twoViews
    cases hdocument
    exact hiff.2 nofun
  · refine (hsame (viewFile "a") ?_ (viewFile "b") ?_ (by decide) (by decide)).2 ⟨rfl, rfl⟩
    · rw [show written _ = _ from hwritten]
      exact List.mem_cons_self
    · rw [show written _ = _ from hwritten]
      exact List.mem_cons_of_mem _ List.mem_cons_self

end Migration
end SchemaCompiler
