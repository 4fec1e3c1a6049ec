import SchemaCompiler.Proofs.Json.Spacing
import SchemaCompiler.Proofs.Migration.Listing
import SchemaCompiler.Proofs.Schema.Reading

/-!
# The forms of a source

A schema can be given as a value, as JSON text, as a file of such text or in a directory of files.
All of these come to the same: a directory to its files in the order of their names, whatever order
the directory lists them in, and a text, read from a file or not, to the value that it stands for.

* `FileTree.Relisted` — two trees that hold the same, and may list it in different orders;
* `Source.InOrder` — what a directory comes to: its files, in the order of their names, up to the
  first one that cannot be loaded;
* `Source.load_relisted` — **what is loaded does not depend on the order in which directories list
  their entries**;
* `Source.load_directory`, `Source.load_written` — **a directory is loaded as its files, and a text
  as what it stands for**;
* `Source.forms_agree` — all of this together.
-/

namespace SchemaCompiler

/-! ### Trees that list the same -/

theorem pairwise_mergeSort (names : List String) :
    (names.mergeSort fun a b => decide (a ≤ b)).Pairwise (· ≤ ·) := by
  refine (List.pairwise_mergeSort ?_ ?_ names).imp of_decide_eq_true
  · intro _ _ _ hab hbc
    exact decide_eq_true (le_trans (of_decide_eq_true hab) (of_decide_eq_true hbc))
  · intro _ _
    simpa using String.le_total _ _

theorem mergeSort_eq_of_perm {names names' : List String} (h : names.Perm names') :
    (names.mergeSort fun a b => decide (a ≤ b)) = names'.mergeSort fun a b => decide (a ≤ b) :=
  ((List.mergeSort_perm _ _).trans (h.trans (List.mergeSort_perm _ _).symm)).eq_of_pairwise
    (fun _ _ _ _ hab hba => le_antisymm hab hba) (pairwise_mergeSort names)
    (pairwise_mergeSort names')

/-- What stands at one place of two trees is the same, and a directory there has the same names in
both, in whatever order. -/
inductive SameListing : Option FileNode → Option FileNode → Prop
  | nothing : SameListing none none
  | file (content : FileContent) : SameListing (some (.file content)) (some (.file content))
  | directory {entries entries' : List (String × FileNode)}
    (h : (entries.map Prod.fst).Perm (entries'.map Prod.fst)) :
    SameListing (some (.directory entries)) (some (.directory entries'))

theorem SameListing.refl (node : Option FileNode) : SameListing node node := by
  cases node with
  | none => exact .nothing
  | some node =>
    cases node with
    | file content => exact .file content
    | directory entries => exact .directory (.refl _)

namespace FileTree

/-- Two trees that hold the same, and may list it in different orders. -/
def Relisted (tree other : FileTree) : Prop :=
  ∀ place, SameListing (tree.node? place) (other.node? place)

/-- The entries of the working directory can be listed in any order. -/
theorem relisted_of_perm {tree : FileTree} {entries : List (String × FileNode)}
    (h : tree.entries.Perm entries) (hnodup : (tree.entries.map Prod.fst).Nodup) :
    Relisted tree { tree with entries } := by
  rintro ⟨anchor, names⟩
  cases anchor with
  | working =>
    show SameListing ((FileNode.directory tree.entries).below? names.reverse)
      ((FileNode.directory entries).below? names.reverse)
    cases names.reverse with
    | nil => exact .directory (h.map Prod.fst)
    | cons name names =>
      show SameListing ((tree.entries.lookup name).bind _) ((entries.lookup name).bind _)
      rw [lookup_of_perm h hnodup]
      exact .refl _
  | above levels => exact .refl _
  | root => exact .refl _

namespace Relisted

variable {tree other : FileTree} (h : Relisted tree other)
include h

theorem isSome_lookup {place : Place} {entries entries' : List (String × FileNode)}
    (hnode : tree.node? place = some (.directory entries))
    (hnode' : other.node? place = some (.directory entries')) (name : String) :
    (entries'.lookup name).isSome = (entries.lookup name).isSome := by
  have hlist := h place
  rw [hnode, hnode'] at hlist
  cases hlist with
  | directory hperm => rw [Bool.eq_iff_iff, ← mem_names_iff, ← mem_names_iff, hperm.mem_iff]

theorem follow (place : Place) (parts : List String) :
    other.follow place parts = tree.follow place parts := by
  induction parts generalizing place with
  | nil => rfl
  | cons part parts ih =>
    have hlist := h place
    rw [FileTree.follow, FileTree.follow]
    generalize hnode : tree.node? place = node at hlist ⊢
    generalize hnode' : other.node? place = node' at hlist ⊢
    cases hlist with
    | nothing => rfl
    | file content => rfl
    | directory hperm => simp only [h.isSome_lookup hnode hnode', ih]

theorem locate (path : String) : other.locate path = tree.locate path := by
  rw [FileTree.locate, FileTree.locate, h.follow]

theorem find? (path : String) : SameListing (tree.find? path) (other.find? path) := by
  rw [FileTree.find?, FileTree.find?, h.locate]
  split
  · exact .nothing
  · split
    next place _ => exact h place
    next => exact .nothing

theorem isDirectory (path : String) : other.isDirectory path = tree.isDirectory path := by
  have hfind := h.find? path
  rw [FileTree.isDirectory, FileTree.isDirectory]
  generalize tree.find? path = node at hfind ⊢
  generalize other.find? path = node' at hfind ⊢
  cases hfind <;> rfl

theorem isFile (path : String) : other.isFile path = tree.isFile path := by
  have hfind := h.find? path
  rw [FileTree.isFile, FileTree.isFile]
  generalize tree.find? path = node at hfind ⊢
  generalize other.find? path = node' at hfind ⊢
  cases hfind <;> rfl

theorem read (path : String) : other.read path = tree.read path := by
  rw [FileTree.read, FileTree.read, h.locate]
  split
  next => rfl
  next place _ =>
    have hlist := h place
    generalize tree.node? place = node at hlist ⊢
    generalize other.node? place = node' at hlist ⊢
    cases hlist <;> rfl

/-- Names that are put in order do not tell which order they came in. -/
theorem names (path : String) : other.names path = tree.names path := by
  have hfind := h.find? path
  rw [FileTree.names, FileTree.names]
  generalize tree.find? path = node at hfind ⊢
  generalize other.find? path = node' at hfind ⊢
  cases hfind with
  | nothing => rfl
  | file content => rfl
  | directory hperm => exact mergeSort_eq_of_perm hperm.symm

end Relisted
end FileTree

namespace Source

variable {tree other : FileTree} {directory : String}

/-- **What is loaded does not depend on the order in which directories list their entries.** -/
theorem load_relisted (h : FileTree.Relisted tree other) (source : Value) :
    load other source = load tree source := by
  have hfile : ∀ path, loadFile other path = loadFile tree path := fun path => by
    rw [loadFile, loadFile, h.read]
  cases source with
  | text s =>
    show loadText other s = loadText tree s
    rw [loadText, loadText, h.isDirectory, h.isFile, hfile, schemaFiles, schemaFiles, h.names]
    simp only [hfile]
  | _ => rfl

/-! ### Directories -/

/-- What a directory comes to: the files whose names end in `.json`, in the order of the names, each
loaded as a source of its own, one after the other up to the first one that cannot be loaded. -/
structure InOrder (tree : FileTree) (directory : String) : Prop where
  sorted : (schemaFiles tree directory).Pairwise (· ≤ ·)
  mem {name : String} : name ∈ schemaFiles tree directory ↔
    name.endsWith ".json" ∧ ∃ entries, tree.find? directory = some (.directory entries) ∧
      name ∈ entries.map Prod.fst
  loaded {results : List (List Schema)}
    (h : List.Forall₂
      (fun name schemas => (load tree (.text (joinPath directory name))).outcome = .ok schemas)
      (schemaFiles tree directory) results) :
    (load tree (.text directory)).outcome = .ok results.flatten
  failed {front rest : List String} {name : String} {fault : Fault}
    (hsplit : schemaFiles tree directory = front ++ name :: rest)
    (hfront : ∀ n ∈ front, Succeeds (load tree (.text (joinPath directory n))).outcome)
    (hname : (load tree (.text (joinPath directory name))).outcome = .error fault) :
    (load tree (.text directory)).outcome = .error fault

theorem load_file {path : String} (h : tree.isFile path = true) :
    load tree (.text path) = loadFile tree path := by
  have hdirectory : tree.isDirectory path = false := by
    rw [FileTree.isFile] at h
    rw [FileTree.isDirectory]
    split at h
    next heq => rw [heq]
    next => cases h
  show loadText tree path = _
  rw [loadText, hdirectory, h]
  rfl

theorem mapM_congr {α β : Type} {f g : α → Except Fault β} {as : List α}
    (h : ∀ a ∈ as, f a = g a) : as.mapM f = as.mapM g := by
  induction as with
  | nil => rfl
  | cons a as ih =>
    rw [List.forall_mem_cons] at h
    rw [List.mapM_cons, List.mapM_cons, h.1, ih h.2]

/-- A directory is loaded as its files, each a source of its own. -/
theorem outcome_load_directory (h : tree.isDirectory directory = true)
    (hfiles : ∀ name ∈ schemaFiles tree directory, tree.isFile (joinPath directory name) = true) :
    (load tree (.text directory)).outcome =
      ((schemaFiles tree directory).mapM fun name =>
        (load tree (.text (joinPath directory name))).outcome).map List.flatten := by
  have hsame : (schemaFiles tree directory).mapM
      (fun name => (load tree (.text (joinPath directory name))).outcome) =
        (schemaFiles tree directory).mapM
          fun name => (loadFile tree (joinPath directory name)).outcome :=
    mapM_congr fun name hname => by rw [load_file (hfiles name hname)]
  show (loadText tree directory).outcome = _
  rw [loadText, h, hsame]
  simp only [if_true, Traced.outcome_bind, Traced.outcome_each]
  cases (schemaFiles tree directory).mapM
    fun name => (loadFile tree (joinPath directory name)).outcome <;> rfl

/-- **A directory is loaded as its files, in the order of their names.** -/
theorem load_directory (h : tree.isDirectory directory = true)
    (hfiles : ∀ name ∈ schemaFiles tree directory, tree.isFile (joinPath directory name) = true) :
    InOrder tree directory where
  sorted := by
    rw [schemaFiles, FileTree.names]
    split
    · exact (pairwise_mergeSort _).filter _
    · exact .nil
  mem := by
    intro name
    rw [schemaFiles, List.mem_filter, FileTree.mem_names, and_comm]
  loaded := by
    intro results hresults
    rw [outcome_load_directory h hfiles, mapM_eq_ok.2 hresults]
    rfl
  failed := by
    intro front rest name fault hsplit hfront hname
    obtain ⟨loaded, hloaded⟩ := succeeds_mapM.2 hfront
    rw [outcome_load_directory h hfiles, hsplit, List.mapM_append, hloaded, List.mapM_cons, hname]
    rfl

/-! ### Texts -/

/-- An object or an array is loaded as the schemas that it holds, wherever it comes from. -/
theorem outcome_load_value {value : Value}
    (h : (∃ entries, value = .mapping entries) ∨ ∃ items, value = .list items) (origin : String) :
    schemasOf value origin = (load tree value).outcome := by
  rcases h with ⟨entries, rfl⟩ | ⟨items, rfl⟩ <;> rfl

theorem readJson_of_parse {text : String} {value : Value} (h : Json.parse text = .ok value)
    (origin : String) : readJson text origin = .ok value := by
  rw [readJson, h]
  rfl

/-- **JSON text that is no path is loaded as the value that it stands for.** -/
theorem load_json {text : String} {value : Value} (h : Json.parse text = .ok value)
    (hstart : text.toList.head? = some '\x7b' ∨ text.toList.head? = some '[')
    (hfree : tree.exists? text = false) :
    (load tree (.text text)).outcome = (load tree value).outcome := by
  have hfind : tree.find? text = none := by
    rw [FileTree.exists?] at hfree
    simpa using hfree
  have hdirectory : tree.isDirectory text = false := by rw [FileTree.isDirectory, hfind]
  have hfile : tree.isFile text = false := by rw [FileTree.isFile, hfind]
  have hread := readJson_of_parse (Json.parse_strip h hstart) "JSON text"
  rw [← outcome_load_value (Json.exists_of_start h hstart) "JSON text"]
  show (loadText tree text).outcome = _
  rw [loadText, hdirectory, hfile]
  rcases Json.head?_strip hstart with hhead | hhead
  · simp only [hhead, hread]
    rfl
  · simp only [hhead, hread]
    rfl

/-- **A file is loaded as the value that its text stands for**, whatever its line ends are. -/
theorem load_written {path text : String} {value : Value} (h : Json.parse text = .ok value)
    (hstart : text.toList.head? = some '\x7b' ∨ text.toList.head? = some '[')
    (hfile : tree.find? path = some (.file (.text text))) :
    (load tree (.text path)).outcome = (load tree value).outcome := by
  have hisFile : tree.isFile path = true := by rw [FileTree.isFile, hfile]
  have hread : tree.read path = .ok (Text.normalizeNewlines text) :=
    FileTree.read_of_find? hfile
  rw [← outcome_load_value (Json.exists_of_start h hstart) path, load_file hisFile, loadFile]
  simp only [Traced.outcome_bind, Traced.outcome_note, Traced.outcome_lift, hread, ok_bind,
    readJson_of_parse (Json.parse_normalizeNewlines h) path]

/-! ### All forms -/

/-- **All forms of a source agree.**  A directory is loaded as its files, in the order of their
names and up to the first one that cannot be loaded; the order in which directories list their
entries does not matter; and JSON text for an object or an array, which is no path, and a file of
this text are loaded as the value that the text stands for, with the same schemas or the same
fault. -/
theorem forms_agree :
    (∀ (tree : FileTree) (directory : String), tree.isDirectory directory = true →
      (∀ name ∈ schemaFiles tree directory, tree.isFile (joinPath directory name) = true) →
      InOrder tree directory) ∧
    (∀ (tree other : FileTree) (source : Value), FileTree.Relisted tree other →
      load other source = load tree source) ∧
    ∀ (tree : FileTree) (text path : String) (value : Value), Json.parse text = .ok value →
      (text.toList.head? = some '\x7b' ∨ text.toList.head? = some '[') →
      tree.exists? text = false → tree.find? path = some (.file (.text text)) →
      (load tree (.text text)).outcome = (load tree value).outcome ∧
        (load tree (.text path)).outcome = (load tree value).outcome :=
  ⟨fun _ _ => load_directory, fun _ _ source h => load_relisted h source,
    fun _ _ _ _ h hstart hfree hfile => ⟨load_json h hstart hfree, load_written h hstart hfile⟩⟩

/-- A working directory with two files of schemas, listed against the order of their names. -/
def listedBackwards : FileTree :=
  { entries := [("b.json", .file (.text "[\r\n]\r\n")),
      ("a.json", .file (.text "\x7b\"tables\": [],\r\n \"functions\": []\x7d\r\n")),
      ("notes.txt", .file (.text "none"))] }

/-- The files come in the order of their names, whichever way round the directory lists them; and
the text of one of them, given as it is or read from the file, holds no schemas. -/
theorem forms_agree_listedBackwards :
    InOrder listedBackwards "." ∧
      load { listedBackwards with entries := listedBackwards.entries.reverse } (.text ".") =
        load listedBackwards (.text ".") ∧
      (load listedBackwards (.text "[\r\n]\r\n")).outcome = .ok [] ∧
      (load listedBackwards (.text "b.json")).outcome = .ok [] := by
  have hnames : ∀ name ∈ listedBackwards.names ".",
      listedBackwards.isFile (joinPath "." name) = true := by
    intro name hname
    obtain ⟨entries, hfind, hmem⟩ := FileTree.mem_names.1 hname
    have hentries : entries = listedBackwards.entries :=
      (FileNode.directory.inj (Option.some.inj hfind)).symm
    have hall : ∀ name ∈ listedBackwards.entries.map Prod.fst,
        listedBackwards.isFile (joinPath "." name) = true := by decide
    exact hall name (hentries ▸ hmem)
  have hperm : FileTree.Relisted listedBackwards
      { listedBackwards with entries := listedBackwards.entries.reverse } :=
    FileTree.relisted_of_perm (List.reverse_perm _).symm (by decide)
  refine ⟨forms_agree.1 listedBackwards "." (by decide) fun name hname =>
      hnames name (List.mem_of_mem_filter hname),
    forms_agree.2.1 listedBackwards _ (.text ".") hperm, ?_⟩
  exact forms_agree.2.2 listedBackwards "[\r\n]\r\n" "b.json" (.list []) rfl (by decide) (by decide)
    rfl

end Source
end SchemaCompiler
