import SchemaCompiler.FileTree.Write

/-!
# What stands where in a file tree

A file tree is known by what stands at each place: a file with its content, a directory, or nothing.
Whether a path leads anywhere, and where to, depends on nothing else.

* `FileTree.at?`, `FileTree.file?` — what stands at a place, and what a file there holds;
* `FileTree.at?_put` — putting a file or an empty directory changes what stands there and nowhere
  else;
* `FileTree.Extends` — everything that was a directory or a file still is one; a path that led
  somewhere still leads there (`Extends.locate`).
-/

namespace SchemaCompiler

/-- What stands at a place: a file with its content, or a directory, whatever is in it. -/
inductive Occupant where
  | file (content : FileContent)
  | directory
  deriving DecidableEq, Repr

/-! ### Nodes -/

namespace FileNode

/-- A node without what is in it. -/
def occupant : FileNode → Occupant
  | .file content => .file content
  | .directory _ => .directory

theorem eq_directory_of_occupant {node : FileNode} (h : node.occupant = .directory) :
    ∃ entries, node = .directory entries := by
  cases node with
  | file content => exact nomatch h
  | directory entries => exact ⟨entries, rfl⟩

theorem eq_file_of_occupant {node : FileNode} {content : FileContent}
    (h : node.occupant = .file content) : node = .file content := by
  cases node with
  | file c => rw [Occupant.file.inj h]
  | directory entries => exact nomatch h

theorem below?_append (names more : List String) (node : FileNode) :
    below? (names ++ more) node = (below? names node).bind (below? more) := by
  induction names generalizing node with
  | nil => rfl
  | cons name names ih =>
    simp only [List.cons_append, below?]
    cases node.child? name with
    | none => rfl
    | some child => exact ih child

/-- There is nothing below a node without entries. -/
theorem below?_of_entries_eq_nil {node : FileNode} (h : node.entries = []) (name : String)
    (names : List String) : below? (name :: names) node = none := by
  rw [below?, child?, h]
  rfl

end FileNode

open FileNode (below? below?_append below?_of_entries_eq_nil)

/-! ### Entries -/

theorem lookup_putEntry (name n : String) (node : FileNode) (entries : List (String × FileNode)) :
    (putEntry name node entries).lookup n = if n = name then some node else entries.lookup n := by
  induction entries with
  | nil =>
    by_cases h : n = name
    · simp [putEntry, h]
    · have hbeq : (n == name) = false := by simpa using h
      rw [putEntry, List.lookup_cons, hbeq, if_neg h]
  | cons entry rest ih =>
    obtain ⟨m, old⟩ := entry
    by_cases hm : m = name
    · rw [putEntry, if_pos hm, List.lookup_cons, List.lookup_cons, hm]
      by_cases h : n = name
      · simp [h]
      · have hbeq : (n == name) = false := by simpa using h
        rw [hbeq, if_neg h]
    · rw [putEntry, if_neg hm, List.lookup_cons, List.lookup_cons, ih]
      by_cases h : n = m
      · simp [h, hm]
      · have hbeq : (n == m) = false := by simpa using h
        rw [hbeq]

theorem mem_names_putEntry {name n : String} {node : FileNode}
    {entries : List (String × FileNode)} :
    n ∈ (putEntry name node entries).map Prod.fst ↔ n = name ∨ n ∈ entries.map Prod.fst := by
  induction entries with
  | nil => simp [putEntry]
  | cons entry rest ih =>
    obtain ⟨m, old⟩ := entry
    by_cases hm : m = name
    · simp [putEntry, hm]
    · rw [putEntry, if_neg hm, List.map_cons, List.mem_cons, ih, List.map_cons, List.mem_cons]
      exact or_left_comm

/-- Putting an entry keeps the names of a directory different. -/
theorem nodup_names_putEntry {name : String} {node : FileNode}
    {entries : List (String × FileNode)} (h : (entries.map Prod.fst).Nodup) :
    ((putEntry name node entries).map Prod.fst).Nodup := by
  induction entries with
  | nil => simp [putEntry]
  | cons entry rest ih =>
    obtain ⟨m, old⟩ := entry
    rw [List.map_cons, List.nodup_cons] at h
    by_cases hm : m = name
    · subst hm
      simpa [putEntry] using h
    · rw [putEntry, if_neg hm, List.map_cons, List.nodup_cons, mem_names_putEntry]
      exact ⟨fun hmem => hmem.elim hm h.1, ih h.2⟩

theorem mem_names_iff {name : String} {entries : List (String × FileNode)} :
    name ∈ entries.map Prod.fst ↔ (entries.lookup name).isSome := by
  induction entries with
  | nil => simp
  | cons entry rest ih =>
    obtain ⟨m, node⟩ := entry
    by_cases h : name = m
    · simp [h]
    · have hbeq : (name == m) = false := by simpa using h
      simp only [List.map_cons, List.mem_cons, h, false_or, ih, List.lookup_cons, hbeq]

/-- Below the first name of a path, the rest of it is put into the directory of that name. -/
theorem putBelow_cons {names : List String} (hnames : names ≠ []) (node : FileNode) (name : String)
    {entries inner : List (String × FileNode)}
    (hinner : entries.lookup name = some (.directory inner)) :
    putBelow node (name :: names) entries =
      putEntry name (.directory (putBelow node names inner)) entries := by
  cases names with
  | nil => exact absurd rfl hnames
  | cons m names => simp only [putBelow, hinner]

section Leaf

variable {node : FileNode} (leaf : node.entries = [])
include leaf

/-- Where all but the last name lead to a directory, and the last one to nothing that has entries,
a node without entries is put there and everything else stays. -/
theorem occupant_putBelow {last : String} (path : List String)
    {entries : List (String × FileNode)} {inner : List (String × FileNode)}
    (hparent : below? path (.directory entries) = some (.directory inner))
    (hold : ∀ old, inner.lookup last = some old → old.entries = []) (names : List String) :
    (below? names (.directory (putBelow node (path ++ [last]) entries))).map FileNode.occupant =
      if names = path ++ [last] then some node.occupant
      else (below? names (.directory entries)).map FileNode.occupant := by
  induction path generalizing entries names with
  | nil =>
    have hentries : entries = inner := by simpa [below?] using hparent
    subst hentries
    cases names with
    | nil => rfl
    | cons x xs =>
      simp only [List.nil_append, putBelow, below?, FileNode.child?, FileNode.entries,
        lookup_putEntry]
      by_cases hx : x = last
      · subst hx
        cases xs with
        | nil => simp [below?]
        | cons y ys =>
          -- Neither the new node nor the old one has anything below it.
          have hbefore : (entries.lookup x).bind (below? (y :: ys)) = none := by
            cases hlookup : entries.lookup x with
            | none => rfl
            | some old => exact below?_of_entries_eq_nil (hold old hlookup) y ys
          simp [below?_of_entries_eq_nil leaf, hbefore]
      · simp [hx]
  | cons p path ih =>
    obtain ⟨child, hchild, hrest⟩ := Option.bind_eq_some_iff.1 hparent
    have hlookup : entries.lookup p = some child := hchild
    -- What leads to a directory is a directory itself.
    obtain ⟨mid, rfl⟩ : ∃ mid, child = .directory mid := by
      cases child with
      | directory mid => exact ⟨mid, rfl⟩
      | file content =>
        cases path with
        | nil => exact nomatch hrest
        | cons q path => rw [below?_of_entries_eq_nil rfl] at hrest; exact nomatch hrest
    rw [List.cons_append, putBelow_cons (by simp) node p hlookup]
    cases names with
    | nil => rfl
    | cons x xs =>
      simp only [below?, FileNode.child?, FileNode.entries, lookup_putEntry]
      by_cases hx : x = p
      · subst hx
        simp only [if_true, Option.bind_some, hlookup, List.cons.injEq, true_and]
        exact ih hrest xs
      · simp [hx]

end Leaf

/-- Neither a directory nor any directory below it holds two entries of one name. -/
def FileNode.Distinct (node : FileNode) : Prop :=
  ∀ names entries, below? names node = some (.directory entries) → (entries.map Prod.fst).Nodup

namespace FileNode

theorem distinct_of_entries_eq_nil {node : FileNode} (h : node.entries = []) :
    node.Distinct := by
  intro names entries hbelow
  cases names with
  | nil =>
    rw [below?, Option.some.injEq] at hbelow
    subst hbelow
    rw [show entries = [] from h]
    exact List.nodup_nil
  | cons x xs =>
    rw [below?_of_entries_eq_nil h] at hbelow
    exact nomatch hbelow

variable {entries : List (String × FileNode)}

theorem Distinct.child (h : (directory entries).Distinct) {name : String} {child : FileNode}
    (hchild : entries.lookup name = some child) : child.Distinct := by
  intro names inner hbelow
  refine h (name :: names) inner ?_
  show (entries.lookup name).bind (below? names) = _
  rw [hchild]
  exact hbelow

theorem Distinct.putEntry (h : (directory entries).Distinct) {child : FileNode}
    (hchild : child.Distinct) (name : String) :
    (directory (putEntry name child entries)).Distinct := by
  intro names inner hbelow
  cases names with
  | nil =>
    rw [below?, Option.some.injEq, directory.injEq] at hbelow
    rw [← hbelow]
    exact nodup_names_putEntry (h [] entries rfl)
  | cons x xs =>
    simp only [below?, child?, FileNode.entries, lookup_putEntry] at hbelow
    by_cases hx : x = name
    · rw [if_pos hx] at hbelow
      exact hchild xs inner hbelow
    · rw [if_neg hx] at hbelow
      exact h (x :: xs) inner hbelow

/-- Putting a node without entries keeps the names in every directory different. -/
theorem Distinct.putBelow {node : FileNode} (leaf : node.entries = []) (path : List String)
    (h : (directory entries).Distinct) : (directory (putBelow node path entries)).Distinct := by
  induction path generalizing entries with
  | nil => exact h
  | cons name path ih =>
    cases path with
    | nil => exact h.putEntry (distinct_of_entries_eq_nil leaf) name
    | cons next path =>
      cases hlookup : entries.lookup name with
      | none =>
        simp only [SchemaCompiler.putBelow, hlookup]
        exact h
      | some child =>
        cases child with
        | file content =>
          simp only [SchemaCompiler.putBelow, hlookup]
          exact h
        | directory inner =>
          rw [putBelow_cons (by simp) node name hlookup]
          exact h.putEntry (ih (h.child hlookup)) name

end FileNode

/-! ### Trees -/

theorem lookup_filter_ne {α : Type} {a b : Anchor} (h : a ≠ b) (entries : List (Anchor × α)) :
    (entries.filter fun e => e.1 ≠ b).lookup a = entries.lookup a := by
  induction entries with
  | nil => rfl
  | cons entry rest ih =>
    obtain ⟨c, x⟩ := entry
    by_cases hc : c = b
    · have hbeq : (a == c) = false := by simpa [hc] using h
      rw [List.filter_cons_of_neg (by simpa using hc), ih, List.lookup_cons, hbeq]
    · rw [List.filter_cons_of_pos (by simpa using hc), List.lookup_cons, List.lookup_cons, ih]

namespace FileTree

variable {tree before after : FileTree}

/-- What stands at a place, if anything does. -/
def at? (tree : FileTree) (place : Place) : Option Occupant :=
  (tree.node? place).map FileNode.occupant

/-- What the file at a place holds, if there is one. -/
def file? (tree : FileTree) (place : Place) : Option FileContent :=
  match tree.at? place with
  | some (.file content) => some content
  | _ => none

theorem file?_eq_some {place : Place} {content : FileContent} :
    tree.file? place = some content ↔ tree.at? place = some (.file content) := by
  rw [file?]
  split
  next c heq => rw [heq, Option.some.injEq, Option.some.injEq, Occupant.file.injEq]
  next hother => exact ⟨nofun, fun h => absurd h (hother content)⟩

theorem file?_eq_none {place : Place} :
    tree.file? place = none ↔ tree.at? place = none ∨ tree.at? place = some .directory := by
  rw [file?]
  cases tree.at? place with
  | none => simp
  | some occupant => cases occupant <;> simp

theorem file?_congr {place : Place} (h : after.at? place = before.at? place) :
    after.file? place = before.file? place := by
  rw [file?, file?, h]

theorem at?_eq_directory {place : Place} :
    tree.at? place = some .directory ↔ ∃ entries, tree.node? place = some (.directory entries) := by
  rw [at?, Option.map_eq_some_iff]
  constructor
  · rintro ⟨node, hnode, hoccupant⟩
    obtain ⟨entries, rfl⟩ := FileNode.eq_directory_of_occupant hoccupant
    exact ⟨entries, hnode⟩
  · rintro ⟨entries, hnode⟩
    exact ⟨_, hnode, rfl⟩

theorem at?_eq_file {place : Place} {content : FileContent} :
    tree.at? place = some (.file content) ↔ tree.node? place = some (.file content) := by
  rw [at?, Option.map_eq_some_iff]
  constructor
  · rintro ⟨node, hnode, hoccupant⟩
    rw [hnode, FileNode.eq_file_of_occupant hoccupant]
  · intro hnode
    exact ⟨_, hnode, rfl⟩

theorem at?_eq_none {place : Place} : tree.at? place = none ↔ tree.node? place = none :=
  Option.map_eq_none_iff

/-- The entry of a directory. -/
theorem node?_child {place : Place} {entries : List (String × FileNode)}
    (h : tree.node? place = some (.directory entries)) (name : String) :
    tree.node? (place.child name) = entries.lookup name := by
  have hbelow : (FileNode.directory (tree.entriesAt place.anchor)).below? place.names.reverse =
      some (.directory entries) := h
  show below? (name :: place.names).reverse (.directory (tree.entriesAt place.anchor)) = _
  rw [List.reverse_cons, below?_append, hbelow]
  show (entries.lookup name).bind (below? []) = _
  cases entries.lookup name <;> rfl

theorem entriesAt_put (tree : FileTree) (place : Place) (node : FileNode) (anchor : Anchor) :
    (tree.put place node).entriesAt anchor =
      if anchor = place.anchor then
        putBelow node place.names.reverse (tree.entriesAt place.anchor)
      else tree.entriesAt anchor := by
  have hlookup : ∀ (b : Anchor) (es : List (String × FileNode)),
      (((b, es) :: tree.outside.filter fun o => o.1 ≠ b).lookup anchor).getD [] =
        if anchor = b then es else (tree.outside.lookup anchor).getD [] := by
    intro b es
    by_cases h : anchor = b
    · simp [h]
    · have hbeq : (anchor == b) = false := by simpa using h
      rw [List.lookup_cons, hbeq, lookup_filter_ne h, if_neg h]
  obtain ⟨_ | levels | _, names⟩ := place
  · cases anchor <;> rfl
  · cases anchor with
    | working => rfl
    | above n => exact hlookup (.above levels) _
    | root => exact hlookup (.above levels) _
  · cases anchor with
    | working => rfl
    | above n => exact hlookup .root _
    | root => exact hlookup .root (putBelow node names.reverse (tree.entriesAt .root))

section Put

variable {place : Place} {name : String} {node : FileNode}
variable (leaf : node.entries = []) (parent : tree.at? place = some .directory)
  (old : tree.at? (place.child name) ≠ some .directory)
include leaf parent old

/-- **Putting a node without entries into a directory changes what stands there, and nothing
else.** -/
theorem at?_put (q : Place) :
    (tree.put (place.child name) node).at? q =
      if q = place.child name then some node.occupant else tree.at? q := by
  obtain ⟨inner, hinner⟩ := at?_eq_directory.1 parent
  have hold : ∀ n, inner.lookup name = some n → n.entries = [] := by
    intro n hn
    rw [← node?_child hinner] at hn
    cases n with
    | file content => rfl
    | directory entries => exact absurd (at?_eq_directory.2 ⟨entries, hn⟩) old
  obtain ⟨anchor, names⟩ := q
  rw [at?, node?, entriesAt_put]
  by_cases hanchor : anchor = place.anchor
  · subst hanchor
    have hrev : (place.child name).names.reverse = place.names.reverse ++ [name] :=
      List.reverse_cons
    have hplace : (⟨place.anchor, names⟩ : Place) = place.child name ↔
        names.reverse = place.names.reverse ++ [name] := by
      rw [← hrev, List.reverse_inj]
      constructor
      · intro h; rw [← h]
      · intro h; rw [h]; rfl
    rw [show (place.child name).anchor = place.anchor from rfl, if_pos rfl, hrev,
      occupant_putBelow leaf _ hinner hold]
    simp only [hplace]
    rfl
  · have hne : (⟨anchor, names⟩ : Place) ≠ place.child name := by
      intro h
      exact hanchor (congrArg Place.anchor h)
    have hother : ¬(⟨anchor, names⟩ : Place).anchor = (place.child name).anchor := hanchor
    rw [if_neg hne, if_neg hother]
    rfl

end Put

/-- No directory holds two entries of one name. -/
def Distinct (tree : FileTree) : Prop :=
  ∀ anchor, (FileNode.directory (tree.entriesAt anchor)).Distinct

theorem Distinct.nodup (h : tree.Distinct) {place : Place} {entries : List (String × FileNode)}
    (hnode : tree.node? place = some (.directory entries)) : (entries.map Prod.fst).Nodup :=
  h place.anchor place.names.reverse entries hnode

theorem Distinct.put (h : tree.Distinct) (place : Place) {node : FileNode}
    (leaf : node.entries = []) : (tree.put place node).Distinct := by
  intro anchor
  rw [entriesAt_put]
  split
  · exact (h place.anchor).putBelow leaf _
  · exact h anchor

/-! ### Following a path -/

end FileTree

/-- The place that a part of a path leads to. -/
def Place.step (place : Place) (part : String) : Place :=
  if part = "" ∨ part = "." then place else if part = ".." then place.parent else place.child part

namespace FileTree

variable {tree before after : FileTree}

/-- A part of a path can be followed from a directory if it stays, goes up or names an entry. -/
def Passes (tree : FileTree) (place : Place) (part : String) : Prop :=
  isDots part ∨ part.utf8ByteSize ≤ longestName ∧ (tree.at? (place.child part)).isSome

theorem isDots_iff {part : String} : isDots part = true ↔ part = "" ∨ part = "." ∨ part = ".." := by
  simp [isDots, or_assoc]

theorem step_of_not_isDots {part : String} (h : isDots part = false) (place : Place) :
    place.step part = place.child part := by
  have hnot : ¬(part = "" ∨ part = "." ∨ part = "..") := fun hdots => by
    rw [← isDots_iff, h] at hdots
    exact nomatch hdots
  rw [Place.step, if_neg fun h => hnot (h.elim .inl fun h => .inr (.inl h)),
    if_neg fun h => hnot (.inr (.inr h))]

/-- Following one part after another: each has to start from a directory and to pass. -/
theorem follow_cons_eq_ok {place target : Place} {part : String} {parts : List String} :
    tree.follow place (part :: parts) = .ok target ↔
      tree.at? place = some .directory ∧ tree.Passes place part ∧
        tree.follow (place.step part) parts = .ok target := by
  rw [follow, Passes]
  split
  next hnone =>
    rw [at?, hnone]
    simp
  next content hfile =>
    rw [at?, hfile]
    simp [FileNode.occupant]
  next entries hdir =>
    have hat : tree.at? place = some .directory := at?_eq_directory.2 ⟨entries, hdir⟩
    have hchild : (tree.at? (place.child part)).isSome = (entries.lookup part).isSome := by
      rw [at?, Option.isSome_map, node?_child hdir]
    by_cases hstay : part = "" ∨ part = "."
    · have hdots : isDots part = true := isDots_iff.2 (hstay.elim .inl fun h => .inr (.inl h))
      simp [hstay, hat, hdots, Place.step]
    · by_cases hup : part = ".."
      · have hdots : isDots part = true := isDots_iff.2 (.inr (.inr hup))
        simp [hup, hat, isDots, Place.step]
      · have hdots : isDots part = false := by
          rw [Bool.eq_false_iff]
          intro h
          rcases isDots_iff.1 h with h | h | h
          · exact hstay (.inl h)
          · exact hstay (.inr h)
          · exact hup h
        rw [if_neg hstay, if_neg hup, step_of_not_isDots hdots, hat, hdots, hchild]
        by_cases hlong : longestName < part.utf8ByteSize
        · rw [if_pos hlong]
          simp [Nat.not_le.2 hlong]
        · rw [if_neg hlong]
          by_cases hentry : (entries.lookup part).isSome = true
          · simp [hentry, Nat.not_lt.1 hlong]
          · rw [if_neg hentry]
            simp [hentry]

theorem follow_append (place : Place) (parts more : List String) :
    tree.follow place (parts ++ more) =
      (tree.follow place parts).bind fun target => tree.follow target more := by
  induction parts generalizing place with
  | nil => rfl
  | cons part parts ih =>
    simp only [List.cons_append, follow]
    split
    · rfl
    · rfl
    · simp only [ih]
      split
      · rfl
      · split
        · rfl
        · split
          · rfl
          · split <;> rfl

theorem follow_append_eq_ok {place target : Place} {parts more : List String} :
    tree.follow place (parts ++ more) = .ok target ↔
      ∃ mid, tree.follow place parts = .ok mid ∧ tree.follow mid more = .ok target := by
  rw [follow_append]
  cases tree.follow place parts with
  | error refusal => simp [Except.bind]
  | ok mid => simp [Except.bind]

/-! ### Trees that grow -/

/-- What was a directory is still one, and what was a file is still a file. -/
structure Extends (before after : FileTree) : Prop where
  directory : ∀ {place}, before.at? place = some .directory → after.at? place = some .directory
  file : ∀ {place content}, before.at? place = some (.file content) →
    ∃ content', after.at? place = some (.file content')

namespace Extends

theorem refl (tree : FileTree) : Extends tree tree := ⟨id, fun h => ⟨_, h⟩⟩

theorem trans {middle : FileTree} (h : Extends before middle) (h' : Extends middle after) :
    Extends before after where
  directory hd := h'.directory (h.directory hd)
  file hf := by
    obtain ⟨content, hf⟩ := h.file hf
    exact h'.file hf

variable (h : Extends before after)
include h

theorem isSome {place : Place} (hsome : (before.at? place).isSome) :
    (after.at? place).isSome := by
  cases hat : before.at? place with
  | none => rw [hat] at hsome; exact nomatch hsome
  | some occupant =>
    cases occupant with
    | directory => rw [h.directory hat]; rfl
    | file content =>
      obtain ⟨content', hafter⟩ := h.file hat
      rw [hafter]
      rfl

theorem follow {place target : Place} {parts : List String}
    (hfollow : before.follow place parts = .ok target) : after.follow place parts = .ok target := by
  induction parts generalizing place with
  | nil => exact hfollow
  | cons part parts ih =>
    obtain ⟨hdir, hpass, hrest⟩ := follow_cons_eq_ok.1 hfollow
    refine follow_cons_eq_ok.2 ⟨h.directory hdir, ?_, ih hrest⟩
    exact hpass.imp_right fun hentry => ⟨hentry.1, h.isSome hentry.2⟩

/-- A path that leads somewhere still leads there. -/
theorem locate {path : String} {place : Place} (hlocate : before.locate path = .ok place) :
    after.locate path = .ok place := by
  unfold FileTree.locate at hlocate ⊢
  split at hlocate
  next => exact nomatch hlocate
  next hne =>
    split at hlocate
    next => exact nomatch hlocate
    next hshort => rw [if_neg hne, if_neg hshort]; exact h.follow hlocate

end Extends

end FileTree
end SchemaCompiler
