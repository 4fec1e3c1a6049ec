import Mathlib
import SchemaCompiler.Proofs.Migration.Creation

/-!
# Listing migrations

What the listing of a directory says of the migrations that were created in it.  The name of a file
is read back into the time and the name of the migration, and the order of the names is that of the
times, if each is at least a second after the one before.

* `FileTree.pairwise_names`, `FileTree.mem_names` — the names in a directory, each once;
* `Migration.IsFor.describe_eq` — a file name is read back into what it was made from;
* `Migration.IsFor.fileName_lt` — a later file has a greater name;
* `Migration.listFiles_createAll` — **migrations are listed as they were created, in the order in
  which they were created**.
-/

namespace SchemaCompiler

/-- A time is at least a second before another one. -/
def Time.SecondBefore (t u : Time) : Prop := t.instant + 1000000 ≤ u.instant

instance : Trans Time.SecondBefore Time.SecondBefore Time.SecondBefore where
  trans {t u v} h h' := by
    rw [Time.SecondBefore] at *
    omega

/-! ### Names in a directory -/

namespace FileTree

theorem mem_names {tree : FileTree} {path name : String} :
    name ∈ tree.names path ↔
      ∃ entries, tree.find? path = some (.directory entries) ∧ name ∈ entries.map Prod.fst := by
  rw [names]
  cases tree.find? path with
  | none => simp
  | some node => cases node <;> simp [FileNode.entries]

theorem of_find?_eq_directory {tree : FileTree} {path : String}
    {entries : List (String × FileNode)} (h : tree.find? path = some (.directory entries)) :
    ∃ place, tree.locate path = .ok place ∧ tree.node? place = some (.directory entries) := by
  unfold find? at h
  split at h
  next => exact nomatch h
  next =>
    split at h
    next place hplace => exact ⟨place, hplace, h⟩
    next => exact nomatch h

/-- The names in a directory are in order, each once. -/
theorem pairwise_names {tree : FileTree} (h : tree.Distinct) (path : String) :
    (tree.names path).Pairwise (· < ·) := by
  rw [names]
  split
  next node hnode =>
    have hsorted : ((node.entries.map Prod.fst).mergeSort fun a b => decide (a ≤ b)).Pairwise
        fun a b => decide (a ≤ b) = true := by
      apply List.pairwise_mergeSort
      · intro a b c hab hbc
        exact decide_eq_true (le_trans (of_decide_eq_true hab) (of_decide_eq_true hbc))
      · intro a b
        simpa using String.le_total a b
    have hnodup : (node.entries.map Prod.fst).Nodup := by
      cases node with
      | file content => exact List.nodup_nil
      | directory entries =>
        obtain ⟨place, -, hplace⟩ := of_find?_eq_directory hnode
        exact h.nodup hplace
    have hdifferent := (List.mergeSort_perm _ fun a b => decide (a ≤ b)).nodup_iff.2 hnodup
    refine List.Pairwise.imp₂ ?_ hsorted hdifferent
    intro a b hle hne
    exact lt_of_le_of_ne (of_decide_eq_true hle) hne
  next => exact .nil

end FileTree

namespace Migration

variable {tree after : FileTree} {directory : String}

/-! ### The name of a file -/

/-- A file name that starts with a stamp is read back into the stamp and the name behind it, whatever
the name is. -/
theorem describe_fileName {t : Time} (h : t.Valid) (hyear : 1000 ≤ t.year)
    (directory name : String) :
    describe directory (t.stamp ++ "_" ++ name ++ ".sql") =
      { fileName := t.stamp ++ "_" ++ name ++ ".sql"
        path := joinPath directory (t.stamp ++ "_" ++ name ++ ".sql")
        name, timestamp := some t.stamp } := by
  have hlength : t.stamp.toList.length = stampLength := Time.length_stamp h hyear
  have hstamp : (t.stamp ++ "_" ++ name ++ ".sql").toList.take stampLength = t.stamp.toList := by
    rw [fileName_toList, ← hlength, List.take_left]
  have hstem : (t.stamp ++ "_" ++ name ++ ".sql").toList.take
      ((t.stamp ++ "_" ++ name ++ ".sql").toList.length - 4) =
        t.stamp.toList ++ '_' :: name.toList := by
    rw [fileName_toList, ← List.cons_append, ← List.append_assoc, List.length_append,
      show ".sql".toList.length = 4 from rfl, Nat.add_sub_cancel, List.take_left]
  have hdigits : t.stamp.toList.all Text.isDigit = true :=
    List.all_eq_true.2 fun c hc => Text.isDigit_of_isDigit (Time.isDigit_of_mem_stamp t c hc)
  have hmark : (t.stamp.toList ++ '_' :: name.toList)[stampLength]? = some '_' := by
    rw [← hlength, List.getElem?_append_right (Nat.le_refl _), Nat.sub_self]
    rfl
  have hname : (t.stamp.toList ++ '_' :: name.toList).drop (stampLength + 1) = name.toList := by
    rw [← hlength, ← List.drop_drop, List.drop_left]
    rfl
  have hmark' : ((t.stamp.toList ++ '_' :: name.toList)[stampLength]? == some '_') = true :=
    beq_iff_eq.2 hmark
  simp only [describe, hstamp, hstem, hlength, hdigits, hmark', hname, beq_self_eq_true,
    Bool.and_true, if_true, String.ofList_toList]

/-- A call whose time can be read back from the name of its file: a time of the calendar which in UTC
falls into a year of four digits. -/
structure Request.Stamped (r : Request) : Prop where
  valid : r.header.created.Valid
  year : ∀ utc, r.header.created.toUtc = .ok utc → 1000 ≤ utc.year

/-- The listing gives a file as the call that created it has returned it, but for its content. -/
theorem IsFor.describe_eq {r : Request} {file : MigrationFile} (hfor : IsFor directory r file)
    (h : r.Stamped) : describe directory file.fileName = { file with content := none } := by
  obtain ⟨created, document, hcreated, -, rfl⟩ := hfor
  obtain ⟨hvalid, -, -⟩ := Time.toUtc_spec h.valid hcreated
  exact describe_fileName hvalid (h.year created hcreated) directory r.name

/-- A file that was created at least a second later has a greater name. -/
theorem IsFor.fileName_lt {r r' : Request} {file file' : MigrationFile}
    (hfor : IsFor directory r file) (hfor' : IsFor directory r' file') (h : r.Stamped)
    (h' : r'.Stamped)
    (hsecond : r.header.created.SecondBefore r'.header.created) :
    file.fileName < file'.fileName := by
  obtain ⟨created, document, hcreated, -, rfl⟩ := hfor
  obtain ⟨created', document', hcreated', -, rfl⟩ := hfor'
  obtain ⟨hvalid, hinstant, hseconds⟩ := Time.toUtc_spec h.valid hcreated
  obtain ⟨hvalid', hinstant', hseconds'⟩ := Time.toUtc_spec h'.valid hcreated'
  have hlt : created.clockSeconds < created'.clockSeconds := by
    have hmicroseconds := hvalid'.microsecond_lt
    have hinstants : r.header.created.instant + 1000000 ≤ r'.header.created.instant := hsecond
    omega
  have hnames := Time.stamp_append_lt hvalid hvalid' (h.year created hcreated)
    (h'.year created' hcreated') hlt ("_" ++ r.name ++ ".sql") ("_" ++ r'.name ++ ".sql")
  simpa only [String.append_assoc] using hnames

theorem endsWith_fileName (stamp name : String) :
    (stamp ++ "_" ++ name ++ ".sql").endsWith ".sql" = true := by
  rw [← String.endsWith_toSlice, String.Slice.endsWith_string_iff, String.copy_toSlice,
    fileName_toList]
  exact ⟨stamp.toList ++ '_' :: name.toList, by simp⟩

/-! ### After a run of calls -/

theorem store_distinct (h : tree.Distinct) (directory path content : String) :
    (store tree directory path content).1.Distinct := by
  have hmakes := tree.makeDirectories_makes directory
  rw [store]
  cases hmade : tree.makeDirectories directory with
  | mk middle made =>
    rw [hmade] at hmakes
    cases made with
    | error fault => exact hmakes.distinct h
    | ok => exact (hmakes.distinct h).write path (.text content)

theorem create_distinct (h : tree.Distinct) (directory : String) (r : Request) :
    (create tree directory r.name r.header r.schemas).1.Distinct := by
  cases hprepared : (prepare r.header r.schemas).outcome with
  | error fault =>
    rw [(create_of_prepare_error hprepared tree directory r.name).1]
    exact h
  | ok prepared =>
    rw [tree_create hprepared]
    exact store_distinct h directory _ prepared.1

theorem createAll_distinct (h : tree.Distinct) (directory : String) (requests : List Request) :
    (createAll directory tree requests).1.Distinct := by
  induction requests generalizing tree with
  | nil => exact h
  | cons r requests ih => exact ih (create_distinct h directory r)

theorem written_map_ok (files : List MigrationFile) : written (files.map .ok) = files := by
  rw [written, List.filterMap_map]
  exact List.filterMap_some

section Run

variable {requests : List Request} {files : List MigrationFile}
variable (hrun : createAll directory tree requests = (after, files.map .ok))
include hrun

/-- Each call has created the file that it asked for, and the path of the file leads somewhere. -/
theorem files_of_createAll :
    List.Forall₂ (fun r file => IsFor directory r file ∧ directory ≠ "" ∧
        '\x00' ∉ file.path.toList ∧ ∃ place, after.locate file.path = .ok place)
      requests files := by
  have hresults := results_createAll directory tree requests
  rw [hrun, List.forall₂_map_right_iff] at hresults
  exact hresults.imp fun r file hspec => hspec file rfl

/-- Files that were created at least a second apart are in the order of their names. -/
theorem pairwise_fileName (hstamped : ∀ r ∈ requests, r.Stamped)
    (hseconds : (requests.map (·.header.created)).IsChain Time.SecondBefore) :
    files.Pairwise fun file file' => file.fileName < file'.fileName := by
  have hpairs : requests.Pairwise fun r r' =>
      r.header.created.SecondBefore r'.header.created :=
    List.pairwise_map.1 (List.isChain_iff_pairwise.1 hseconds)
  have hfiles := files_of_createAll hrun
  have hlength := hfiles.length_eq
  rw [List.pairwise_iff_getElem] at hpairs ⊢
  intro i j hi hj hij
  have hi' : i < requests.length := hlength ▸ hi
  have hj' : j < requests.length := hlength ▸ hj
  obtain ⟨hfor, -⟩ := hfiles.get hi' hi
  obtain ⟨hfor', -⟩ := hfiles.get hj' hj
  exact hfor.fileName_lt hfor' (hstamped _ (List.getElem_mem hi')) (hstamped _ (List.getElem_mem hj'))
    (hpairs i j hi' hj' hij)

section Names

variable (hstamped : ∀ r ∈ requests, r.Stamped) (hslash : ∀ r ∈ requests, '/' ∉ r.name.toList)
variable (hseconds : (requests.map (·.header.created)).IsChain Time.SecondBefore)
include hstamped hslash hseconds

/-- No two files are at one place. -/
theorem find?_of_mem {file : MigrationFile} (hfile : file ∈ files) :
    ∃ document, file.content = some document ∧
      after.find? file.path = some (.file (.text document)) := by
  have hfiles := files_of_createAll hrun
  have hsorted := pairwise_fileName hrun hstamped hseconds
  obtain ⟨earlier, later, hsplit⟩ := List.append_of_mem hfile
  have hresults : (createAll directory tree requests).2 =
      earlier.map .ok ++ .ok file :: later.map .ok := by
    rw [hrun, hsplit, List.map_append, List.map_cons]
  obtain ⟨document, place, hcontent, hplace, hread⟩ := find?_eq_iff_of_split hresults
  rw [hrun, written_map_ok] at hread
  rw [hrun] at hplace
  refine ⟨document, hcontent, hread.2 ?_⟩
  intro last hlast
  obtain ⟨hmem, hlocate⟩ := of_lastAt_eq_some hlast
  have hlastmem : last ∈ files := by
    rw [hsplit]
    exact List.mem_append_right _ (List.mem_cons_of_mem _ hmem)
  obtain ⟨r, hr, hfor, hdirectory, -⟩ := exists_of_mem_right hfiles hfile
  obtain ⟨r', hr', hfor', -⟩ := exists_of_mem_right hfiles hlastmem
  -- A later file at the same place would have the same name, but later names are greater.
  have hsame : file.fileName = last.fileName := by
    rw [hfor.fileName_eq_iff hfor',
      ← hfor.locate_eq_iff hfor' hdirectory (hslash r hr) (hslash r' hr') hplace hlocate]
  rw [hsplit, List.pairwise_append, List.pairwise_cons] at hsorted
  exact absurd hsame (ne_of_lt (hsorted.2.1.1 last hmem))

/-- A file that was created is one of those in the directory. -/
theorem fileName_mem_names {file : MigrationFile} (hfile : file ∈ files) :
    file.fileName ∈ after.names directory := by
  obtain ⟨document, -, hfind⟩ := find?_of_mem hrun hstamped hslash hseconds hfile
  obtain ⟨r, hr, hfor, hdirectory, hnull, place, hplace⟩ :=
    exists_of_mem_right (files_of_createAll hrun) hfile
  obtain ⟨parent, hparent, hdir, hchild⟩ := hfor.locate hdirectory (hslash r hr) hplace
  obtain ⟨entries, hentries⟩ := FileTree.at?_eq_directory.1 hdir
  rw [FileTree.mem_names]
  refine ⟨entries, ?_, ?_⟩
  · have hpath : file.path = joinPath directory file.fileName := by
      obtain ⟨created, _, -, -, rfl⟩ := hfor
      rfl
    have hcontains : directory.toList.contains '\x00' = false := by
      rw [hpath] at hnull
      unfold joinPath at hnull
      split at hnull <;> simp_all
    rw [FileTree.find?, hcontains, hparent]
    exact hentries
  · rw [FileTree.find?_eq_file_iff hnull hplace, FileTree.file?_eq_some, FileTree.at?_eq_file,
      hchild, FileTree.node?_child hentries] at hfind
    rw [mem_names_iff, hfind]
    rfl

/-- The files are listed as they were returned, in the order of the calls. -/
theorem sublist_listFiles (hdistinct : after.Distinct) :
    (files.map fun file => { file with content := none }).Sublist (listFiles after directory) := by
  have hfiles := files_of_createAll hrun
  -- Both lists are in the order of the names, so it is enough that each name is listed.
  have hlisted : ((after.names directory).filter (·.endsWith ".sql")).Pairwise (· < ·) :=
    (FileTree.pairwise_names hdistinct directory).filter _
  have hnames : (files.map (·.fileName)).Pairwise (· < ·) :=
    List.pairwise_map.2 (pairwise_fileName hrun hstamped hseconds)
  have hsubset : files.map (·.fileName) ⊆
      (after.names directory).filter (·.endsWith ".sql") := by
    intro fileName hmem
    obtain ⟨file, hfile, rfl⟩ := List.mem_map.1 hmem
    obtain ⟨r, hr, ⟨created, document, -, -, hmade⟩, -⟩ := exists_of_mem_right hfiles hfile
    refine List.mem_filter.2 ⟨fileName_mem_names hrun hstamped hslash hseconds hfile, ?_⟩
    rw [hmade]
    exact endsWith_fileName created.stamp r.name
  have hsublist : (files.map (·.fileName)).Sublist
      ((after.names directory).filter (·.endsWith ".sql")) :=
    List.sublist_of_subperm_of_pairwise
      (List.subperm_of_subset (hnames.imp ne_of_lt) hsubset) hnames hlisted
  have hdescribe : (files.map fun file => { file with content := none }) =
      (files.map (·.fileName)).map (describe directory) := by
    rw [List.map_map]
    refine List.map_congr_left fun file hfile => ?_
    obtain ⟨r, hr, hfor, -⟩ := exists_of_mem_right hfiles hfile
    exact (hfor.describe_eq (hstamped r hr)).symm
  rw [hdescribe, listFiles]
  exact hsublist.map (describe directory)

end Names

end Run

/-- The listing has each file of the directory whose name ends in `.sql`, in the order of the names.
-/
theorem map_fileName_listFiles (tree : FileTree) (directory : String) :
    (listFiles tree directory).map (·.fileName) =
      (tree.names directory).filter (·.endsWith ".sql") := by
  rw [listFiles, List.map_map]
  exact List.map_id _

/-- **Migrations are listed as they were created, in the order in which they were created.**  Let
some calls in a directory all go well, each at least a second after the one before, in years of four
digits and for names without slashes.  The listing is then in the order of the file names and has
each `.sql` entry of the directory once and nothing else.  Among these are the files that the calls
have returned, in the order of the calls, and no other file has changed.

Each of them holds just the document that its call has returned.  Who reads it as a text reads a line
feed for every line end, and so reads the document as it is if there is no carriage return in it. -/
theorem listFiles_createAll {requests : List Request} {files : List MigrationFile}
    (hdistinct : tree.Distinct)
    (hrun : createAll directory tree requests = (after, files.map .ok))
    (hstamped : ∀ r ∈ requests, r.Stamped) (hslash : ∀ r ∈ requests, '/' ∉ r.name.toList)
    (hseconds : (requests.map (·.header.created)).IsChain Time.SecondBefore) :
    ((listFiles after directory).map (·.fileName)).Pairwise (· < ·) ∧
    (∀ fileName, fileName ∈ (listFiles after directory).map (·.fileName) ↔
      fileName.endsWith ".sql" = true ∧ ∃ entries,
        after.find? directory = some (.directory entries) ∧ fileName ∈ entries.map Prod.fst) ∧
    List.Forall₂ (IsFor directory) requests files ∧
    (files.map fun file => { file with content := none }).Sublist (listFiles after directory) ∧
    (∀ file ∈ files, ∃ document, file.content = some document ∧
      after.find? file.path = some (.file (.text document)) ∧
      after.read file.path = .ok (Text.normalizeNewlines document) ∧
      ('\r' ∉ document.toList → after.read file.path = .ok document)) ∧
    ∀ place, (∀ file ∈ files, after.locate file.path ≠ .ok place) →
      after.file? place = tree.file? place := by
  have hafter : after.Distinct := by
    have hall := createAll_distinct hdistinct directory requests
    rw [hrun] at hall
    exact hall
  refine ⟨?_, ?_, ?_, sublist_listFiles hrun hstamped hslash hseconds hafter, ?_, ?_⟩
  · rw [map_fileName_listFiles]
    exact (FileTree.pairwise_names hafter directory).filter _
  · intro fileName
    rw [map_fileName_listFiles, List.mem_filter, FileTree.mem_names, and_comm]
  · exact (files_of_createAll hrun).imp fun r file hspec => hspec.1
  · intro file hfile
    obtain ⟨document, hcontent, hfind⟩ := find?_of_mem hrun hstamped hslash hseconds hfile
    have hread := FileTree.read_of_find? hfind
    refine ⟨document, hcontent, hfind, hread, fun hreturn => ?_⟩
    rw [hread, Text.normalizeNewlines_of_notMem hreturn]
  · intro place hplace
    have hplaces := file?_createAll directory tree requests place
    rw [hrun, written_map_ok, contentAfter, lastAt_eq_none hplace] at hplaces
    exact hplaces

/-- A call one second after half past twelve, for a migration whose name looks like a file name. -/
def laterRequest : Request where
  name := "2024__b.sql"
  header := {
    description := .text "Views", created := { halfPastTwelve with second := 1 }
    toolName := .text "Tenjin Framework" }
  schemas := [{ views := [{ name := .text "b", query := .text "SELECT 1" }] }]

/-- The file that it returns. -/
def laterFile : MigrationFile where
  fileName := "20240501123001_2024__b.sql.sql"
  path := "m/20240501123001_2024__b.sql.sql"
  name := "2024__b.sql"
  timestamp := some "20240501123001"
  content := some
    ("-- Views\n-- Created: 2024-05-01T12:30:01+00:00\n-- Generated by: Tenjin Framework\n\n" ++
      "CREATE VIEW b AS\nSELECT 1;\n")

theorem results_later :
    (createAll "m" {} [viewRequest "a", laterRequest]).2 = [.ok (viewFile "a"), .ok laterFile] := by
  rfl

/-- Both files are listed, the earlier one first, and each can be read back. -/
theorem listFiles_later :
    let after := (createAll "m" {} [viewRequest "a", laterRequest]).1
    [{ viewFile "a" with content := none }, { laterFile with content := none }].Sublist
      (listFiles after "m") ∧
    (∃ document, laterFile.content = some document ∧
      after.find? laterFile.path = some (.file (.text document)) ∧
      after.read laterFile.path = .ok document) ∧
    after.file? ⟨.working, ["notes.txt"]⟩ = none := by
  intro after
  have hrun : createAll "m" {} [viewRequest "a", laterRequest] =
      (after, [viewFile "a", laterFile].map .ok) := Prod.ext rfl results_later
  have hvalid : ∀ t : Time, t = halfPastTwelve ∨ t = { halfPastTwelve with second := 1 } →
      t.Valid := by
    intro t ht
    rcases ht with rfl | rfl <;>
      exact ⟨⟨by decide, by decide, by decide, by decide, by decide⟩,
        by decide, by decide, by decide, by decide, by decide⟩
  have hstamped : ∀ r ∈ [viewRequest "a", laterRequest], r.Stamped := by
    intro r hr
    rcases List.mem_pair.1 hr with rfl | rfl
    · refine ⟨hvalid _ (.inl rfl), fun utc hutc => ?_⟩
      cases hutc
      decide
    · refine ⟨hvalid _ (.inr rfl), fun utc hutc => ?_⟩
      cases hutc
      decide
  have hslash : ∀ r ∈ [viewRequest "a", laterRequest], '/' ∉ r.name.toList := by
    intro r hr
    rcases List.mem_pair.1 hr with rfl | rfl <;> decide
  have hseconds : ([viewRequest "a", laterRequest].map (·.header.created)).IsChain
      Time.SecondBefore :=
    .cons_cons (by decide +kernel : halfPastTwelve.instant + 1000000 ≤
      ({ halfPastTwelve with second := 1 } : Time).instant) (.singleton _)
  have hdistinct : FileTree.Distinct {} := by
    intro anchor
    apply FileNode.distinct_of_entries_eq_nil
    cases anchor <;> rfl
  obtain ⟨-, -, -, hlisted, hread, hframe⟩ :=
    listFiles_createAll hdistinct hrun hstamped hslash hseconds
  obtain ⟨document, hcontent, hfind, -, hexact⟩ := hread laterFile (by simp)
  have hreturn : '\r' ∉ document.toList := by
    cases hcontent
    decide
  refine ⟨hlisted, ⟨document, hcontent, hfind, hexact hreturn⟩,
    hframe ⟨.working, ["notes.txt"]⟩ ?_⟩
  intro file hfile
  rcases List.mem_pair.1 hfile with rfl | rfl
  · show after.locate "m/20240501123000_init.sql" ≠ _
    rw [show after.locate "m/20240501123000_init.sql" =
      .ok ⟨.working, ["20240501123000_init.sql", "m"]⟩ from rfl]
    decide
  · show after.locate "m/20240501123001_2024__b.sql.sql" ≠ _
    rw [show after.locate "m/20240501123001_2024__b.sql.sql" =
      .ok ⟨.working, ["20240501123001_2024__b.sql.sql", "m"]⟩ from rfl]
    decide

end Migration
end SchemaCompiler
