import Mathlib.Data.List.Nodup
import Mathlib.Data.List.Perm.Basic
import OriSyntax.Discovery
import OriSyntax.Proofs.Paths

/-!
What a search for sources finds.  A walk shows the files of a directory tree in the order of
their paths, each of them once; of these a search finds the ones whose names end as sources
do, outside directories with code of others.
-/

namespace OriSyntax

namespace FileTree

/-- Each entry has a name that it can have, and no two entries of a directory have one. -/
inductive WellNamed : FileTree → Prop
  | file (bytes : ByteArray) : WellNamed (.file bytes)
  | link (target : String) : WellNamed (.link target)
  | directory {entries : List (String × FileTree)}
      (names : ∀ entry ∈ entries, Path.IsName entry.1)
      (distinct : (entries.map Prod.fst).Nodup)
      (inner : ∀ entry ∈ entries, WellNamed entry.2) : WellNamed (.directory entries)

/-- From the top of a tree, `names` lead to a file that is a source, and no directory on the
way has code of others.  The names from where the search began are `above`, down to the top,
and then `names`. -/
structure HasSource (top : FileTree) (above names : List String) : Prop where
  file : ∃ bytes, top.lookup names = some (.file bytes)
  extension : ∃ name ∈ (above ++ names).getLast?,
    Path.HasExtension "ori" name ∨ Path.HasExtension "mod" name
  outside : ∀ directory ∈ (above ++ names).dropLast, ¬ Path.EndsInVendor directory

variable {tree : FileTree} {entries : List (String × FileTree)} {above names : List String}

theorem lookup_eq_some_iff (hdistinct : (entries.map Prod.fst).Nodup) {name : String} :
    entries.lookup name = some tree ↔ (name, tree) ∈ entries := by
  induction entries with
  | nil => simp
  | cons entry rest ih =>
      obtain ⟨first, inner⟩ := entry
      rw [List.map_cons, List.nodup_cons] at hdistinct
      rw [List.lookup_cons, List.mem_cons, Prod.mk.injEq]
      by_cases hname : name = first
      · subst hname
        have hrest : (name, tree) ∉ rest := fun hmem => hdistinct.1 (List.mem_map.2 ⟨_, hmem, rfl⟩)
        simp [hrest, eq_comm]
      · rw [beq_eq_false_iff_ne.2 hname]
        simp [hname, ih hdistinct.2]

/-- Names that lead on from the top of a well named tree are names of entries, and what they
lead to is well named. -/
theorem WellNamed.of_lookup (hnamed : tree.WellNamed) {found : FileTree}
    (hfound : tree.lookup names = some found) :
    (∀ name ∈ names, Path.IsName name) ∧ found.WellNamed := by
  induction names generalizing tree with
  | nil =>
      cases hfound
      exact ⟨List.forall_mem_nil _, hnamed⟩
  | cons name rest ih =>
      cases hnamed with
      | file _ | link _ => exact nomatch hfound
      | directory hnames hdistinct hinner =>
          obtain ⟨inner, hlookup, hrest⟩ := Option.bind_eq_some_iff.1 hfound
          have hentry := (lookup_eq_some_iff hdistinct).1 hlookup
          obtain ⟨hsteps, hend⟩ := ih (hinner _ hentry) hrest
          rw [List.forall_mem_cons]
          exact ⟨⟨hnames _ hentry, hsteps⟩, hend⟩

/-- What a path leads to in a well named tree is well named. -/
theorem WellNamed.of_find (hnamed : tree.WellNamed) {followLast : Bool} {path : String}
    {found : FileTree} (hfound : tree.find followLast path = .ok found) : found.WellNamed := by
  rw [find] at hfound
  split at hfound
  · exact nomatch hfound
  · split at hfound
    · split at hfound
      · next hlookup =>
          cases hfound
          exact (hnamed.of_lookup hlookup).2
      · exact nomatch hfound
    · exact nomatch hfound

theorem WellNamed.empty : (FileTree.directory []).WellNamed :=
  .directory (List.forall_mem_nil _) List.nodup_nil (List.forall_mem_nil _)

theorem WellNamed.directory_entries (hnamed : tree.WellNamed) :
    (FileTree.directory tree.entries).WellNamed := by
  cases hnamed with
  | file _ | link _ => exact .empty
  | directory hnames hdistinct hinner => exact .directory hnames hdistinct hinner

/-- Whatever is put into a well named tree at names that entries can have, it stays well
named; so any tree that is built up in this way is. -/
theorem WellNamed.insert {node : FileTree} (hnamed : tree.WellNamed) (hnode : node.WellNamed)
    (hsteps : ∀ name ∈ names, Path.IsName name) : (tree.insert names node).WellNamed := by
  induction names generalizing tree with
  | nil =>
      rw [FileTree.insert]
      split
      · exact hnamed
      · exact hnode
  | cons name rest ih =>
      rw [List.forall_mem_cons] at hsteps
      cases hnamed.directory_entries with
      | directory hnames hdistinct hinner =>
          have hplace : ((tree.entries.lookup name).getD (.directory [])).WellNamed := by
            cases hlookup : tree.entries.lookup name with
            | none => exact .empty
            | some inner => exact hinner _ ((lookup_eq_some_iff hdistinct).1 hlookup)
          have hothers {P : String × FileTree → Prop} (hall : ∀ entry ∈ tree.entries, P entry) :
              ∀ entry ∈ tree.entries.filter (·.1 ≠ name), P entry :=
            fun entry hentry => hall entry (List.mem_of_mem_filter hentry)
          have habsent : name ∉ (tree.entries.filter (·.1 ≠ name)).map Prod.fst := by simp
          rw [FileTree.insert]
          refine .directory ?_ ?_ ?_
          · exact List.forall_mem_append.2
              ⟨hothers hnames, List.forall_mem_singleton.2 hsteps.1⟩
          · rw [List.map_append, List.map_singleton, ← List.concat_eq_append]
            exact (hdistinct.sublist (List.filter_sublist.map _)).concat habsent
          · exact List.forall_mem_append.2
              ⟨hothers hinner, List.forall_mem_singleton.2 (ih hplace hsteps.2)⟩

theorem not_hasSource_link (target : String) : ¬ (link target).HasSource above names := by
  rintro ⟨⟨bytes, hbytes⟩, -, -⟩
  cases names <;> exact nomatch hbytes

/-- Where nothing stands above it a file has no name. -/
theorem not_hasSource_file (bytes : ByteArray) : ¬ (file bytes).HasSource [] names := by
  rintro ⟨⟨found, hfound⟩, ⟨name, hname, -⟩, -⟩
  cases names with
  | nil => exact nomatch hname
  | cons first rest => exact nomatch hfound

theorem hasSource_file_iff {bytes : ByteArray} {name : String} :
    (file bytes).HasSource [name] names ↔ names = [] ∧ Path.isSource name := by
  rw [Path.isSource_iff]
  constructor
  · rintro ⟨⟨found, hfound⟩, hextension, -⟩
    cases names with
    | nil => simpa using hextension
    | cons first rest => exact nomatch hfound
  · rintro ⟨rfl, hextension⟩
    exact ⟨⟨bytes, rfl⟩, ⟨name, rfl, hextension⟩, fun _ hnil => nomatch hnil⟩

/-- In a directory a search goes on at one of its entries. -/
theorem hasSource_directory_iff (hdistinct : (entries.map Prod.fst).Nodup) :
    (directory entries).HasSource above names ↔
      (∀ directory ∈ above, ¬ Path.EndsInVendor directory) ∧
        ∃ entry ∈ entries, ∃ rest, names = entry.1 :: rest ∧ entry.2.HasSource [entry.1] rest := by
  have hlast (name : String) (rest : List String) :
      (above ++ name :: rest).getLast? = ([name] ++ rest).getLast? := by
    rw [List.getLast?_append_of_ne_nil _ (List.cons_ne_nil _ _)]
    rfl
  have hways (name : String) (rest : List String) :
      (above ++ name :: rest).dropLast = above ++ ([name] ++ rest).dropLast :=
    List.dropLast_append_of_ne_nil (List.cons_ne_nil _ _)
  constructor
  · rintro ⟨⟨bytes, hbytes⟩, hextension, houtside⟩
    cases names with
    | nil => exact nomatch hbytes
    | cons name rest =>
        obtain ⟨inner, hlookup, hfile⟩ := Option.bind_eq_some_iff.1 hbytes
        rw [hlast] at hextension
        rw [hways, List.forall_mem_append] at houtside
        exact ⟨houtside.1, (name, inner), (lookup_eq_some_iff hdistinct).1 hlookup, rest, rfl,
          ⟨bytes, hfile⟩, hextension, houtside.2⟩
  · rintro ⟨habove, ⟨name, inner⟩, hentry, rest, rfl, ⟨bytes, hfile⟩, hextension, houtside⟩
    refine ⟨⟨bytes, ?_⟩, ?_, ?_⟩
    · change (entries.lookup name).bind (fun inner => inner.lookup rest) = _
      rw [(lookup_eq_some_iff hdistinct).2 hentry]
      exact hfile
    · rwa [hlast]
    · rw [hways, List.forall_mem_append]
      exact ⟨habove, houtside⟩

theorem listings_eq (path : String) (entries : List (String × FileTree)) :
    listings path entries =
      entries.map fun entry => (entry.1, entry.2.sources (Path.join path entry.1) entry.1) := by
  induction entries with
  | nil => rw [listings, List.map_nil]
  | cons entry rest ih => rw [listings, ih, List.map_cons]

theorem mem_sourcesOf {path found : String} : found ∈ sourcesOf path entries ↔
    ∃ entry ∈ entries, found ∈ entry.2.sources (Path.join path entry.1) entry.1 := by
  rw [sourcesOf, List.mem_flatMap, listings_eq]
  simp only [List.mem_mergeSort, List.mem_map]
  constructor
  · rintro ⟨-, ⟨entry, hentry, rfl⟩, hfound⟩
    exact ⟨entry, hentry, hfound⟩
  · rintro ⟨entry, hentry, hfound⟩
    exact ⟨_, ⟨entry, hentry, rfl⟩, hfound⟩

/-- What a walk is to show of a tree: the sources that are to be found, by their paths. -/
def ShowsSources (tree : FileTree) : Prop := ∀ path name found,
  found ∈ tree.sources path name ↔
    ∃ names, tree.HasSource [name] names ∧ Path.descend path names = found

theorem mem_sourcesOf_iff (hdistinct : (entries.map Prod.fst).Nodup)
    (hentries : ∀ entry ∈ entries, entry.2.ShowsSources) {path found : String} :
    found ∈ sourcesOf path entries ↔
      ∃ names, (directory entries).HasSource [] names ∧ Path.descend path names = found := by
  simp only [mem_sourcesOf, hasSource_directory_iff hdistinct]
  constructor
  · rintro ⟨entry, hentry, hfound⟩
    obtain ⟨rest, hrest, rfl⟩ := (hentries entry hentry _ _ _).1 hfound
    exact ⟨entry.1 :: rest, ⟨fun _ hnil => (nomatch hnil), entry, hentry, rest, rfl, hrest⟩, rfl⟩
  · rintro ⟨names, ⟨-, entry, hentry, rest, rfl, hrest⟩, rfl⟩
    exact ⟨entry, hentry, (hentries entry hentry _ _ _).2 ⟨rest, hrest, rfl⟩⟩

theorem WellNamed.showsSources (hnamed : tree.WellNamed) : tree.ShowsSources := by
  induction hnamed with
  | file bytes =>
      intro path name found
      rw [sources]
      simp only [hasSource_file_iff]
      by_cases hsource : Path.isSource name
      · simp [hsource, Path.descend, eq_comm]
      · simp [hsource]
  | link target =>
      intro path name found
      simp [sources, not_hasSource_link]
  | @directory entries hnames hdistinct hinner ih =>
      intro path name found
      rw [sources]
      by_cases hvendor : Path.isVendor name
      · have hnone (names : List String) :
            ¬ (FileTree.directory entries).HasSource [name] names := by
          rw [hasSource_directory_iff hdistinct]
          exact fun hsource => hsource.1 name List.mem_cons_self (Path.isVendor_iff.1 hvendor)
        simp [hvendor, hnone]
      · have hsame (names : List String) : (FileTree.directory entries).HasSource [name] names ↔
            (FileTree.directory entries).HasSource [] names := by
          rw [hasSource_directory_iff hdistinct, hasSource_directory_iff hdistinct]
          simp [← Path.isVendor_iff, hvendor]
        simp only [hvendor, Bool.false_eq_true, if_false, hsame]
        exact mem_sourcesOf_iff hdistinct ih

/-- Entries are walked in the order of their names. -/
theorem pairwise_mergeSort_listings (hdistinct : (entries.map Prod.fst).Nodup) (path : String) :
    ((listings path entries).mergeSort fun one other => one.1 ≤ other.1).Pairwise
      fun one other => one.1 < other.1 := by
  let before (one other : String × List String) : Bool := one.1 ≤ other.1
  have htrans (one two three : String × List String) (hone : before one two)
      (htwo : before two three) : before one three :=
    decide_eq_true (String.le_trans (of_decide_eq_true hone) (of_decide_eq_true htwo))
  have htotal (one other : String × List String) : before one other || before other one := by
    simpa [before] using String.le_total one.1 other.1
  have hsorted := List.pairwise_mergeSort htrans htotal (listings path entries)
  have hnames : ((listings path entries).map Prod.fst).Nodup := by
    rw [listings_eq, List.map_map]
    exact hdistinct
  have hapart : ((listings path entries).mergeSort before).Pairwise
      fun one other => one.1 ≠ other.1 := by
    rw [← List.pairwise_map (f := Prod.fst) (R := (· ≠ ·))]
    exact ((List.mergeSort_perm _ _).map Prod.fst).nodup_iff.2 hnames
  exact hsorted.imp₂ (fun one other hle hne => lt_of_le_of_ne (of_decide_eq_true hle) hne) hapart

theorem pairwise_sourcesOf (hnames : ∀ entry ∈ entries, Path.IsName entry.1)
    (hdistinct : (entries.map Prod.fst).Nodup)
    (hinner : ∀ entry ∈ entries, entry.2.WellNamed) (path : String)
    (hentries : ∀ entry ∈ entries,
      (entry.2.sources (Path.join path entry.1) entry.1).Pairwise Path.Before) :
    (sourcesOf path entries).Pairwise Path.Before := by
  -- what an entry shows lies below that entry
  have hbelow {entry : String × FileTree} (hentry : entry ∈ entries) {found : String}
      (hfound : found ∈ entry.2.sources (Path.join path entry.1) entry.1) :
      ∃ steps, (∀ step ∈ entry.1 :: steps, Path.IsName step) ∧
        Path.descend path (entry.1 :: steps) = found := by
    obtain ⟨steps, ⟨⟨bytes, hbytes⟩, -, -⟩, hsteps⟩ :=
      ((hinner entry hentry).showsSources _ _ _).1 hfound
    refine ⟨steps, ?_, hsteps⟩
    rw [List.forall_mem_cons]
    exact ⟨hnames entry hentry, ((hinner entry hentry).of_lookup hbytes).1⟩
  have hlisted {listing : String × List String} (hlisting : listing ∈
      (listings path entries).mergeSort fun one other => one.1 ≤ other.1) :
      ∃ entry ∈ entries,
        (entry.1, entry.2.sources (Path.join path entry.1) entry.1) = listing := by
    rwa [List.mem_mergeSort, listings_eq, List.mem_map] at hlisting
  rw [sourcesOf, List.pairwise_flatMap]
  constructor
  · intro listing hlisting
    obtain ⟨entry, hentry, rfl⟩ := hlisted hlisting
    exact hentries entry hentry
  · refine (pairwise_mergeSort_listings hdistinct path).imp_of_mem ?_
    intro one other hone hother hless found hfound later hlater
    obtain ⟨first, hfirst, rfl⟩ := hlisted hone
    obtain ⟨second, hsecond, rfl⟩ := hlisted hother
    obtain ⟨steps, hsteps, rfl⟩ := hbelow hfirst hfound
    obtain ⟨others, hothers, rfl⟩ := hbelow hsecond hlater
    exact Path.before_descend hsteps hothers hless

theorem WellNamed.pairwise_sources (hnamed : tree.WellNamed) (path name : String) :
    (tree.sources path name).Pairwise Path.Before := by
  induction hnamed generalizing path name with
  | file bytes =>
      rw [sources]
      split
      · exact List.pairwise_singleton _ _
      · exact .nil
  | link target =>
      rw [sources]
      exact .nil
  | directory hnames hdistinct hinner ih =>
      rw [sources]
      split
      · exact .nil
      · exact pairwise_sourcesOf hnames hdistinct hinner path fun entry hentry =>
          ih entry hentry _ _

end FileTree

namespace WalkStart

/-- The tree that is searched: what stands at the start or, if that is a link, what the link
leads to. -/
def top (start : WalkStart) : FileTree :=
  match start.own with
  | .link _ => start.target
  | own => own

/-- The names of what is searched itself: the last name of the path, unless a link stands
there. -/
def above (start : WalkStart) (dir : String) : List String :=
  match start.own with
  | .link _ => []
  | _ => [Path.lastName dir]

variable {start : WalkStart}

/-- What is searched in a well named tree is well named. -/
theorem wellNamed_top {tree : FileTree} (hnamed : tree.WellNamed) {dir : String}
    (hstart : tree.storage.start dir = .ok start) : start.top.WellNamed := by
  change (tree.find false dir >>= fun own => tree.find true dir >>= fun target =>
    pure (WalkStart.mk own target)) = _ at hstart
  cases hown : tree.find false dir with
  | error cause => exact nomatch hown ▸ hstart
  | ok own =>
      cases htarget : tree.find true dir with
      | error cause => exact nomatch htarget ▸ hown ▸ hstart
      | ok target =>
          rw [hown, htarget] at hstart
          cases hstart
          rw [top]
          split
          · exact hnamed.of_find htarget
          · exact hnamed.of_find hown

theorem mem_sources_iff (hnamed : start.top.WellNamed) {dir found : String} :
    found ∈ start.sources dir ↔ ∃ names, start.top.HasSource (start.above dir) names ∧
      Path.descend dir names = found := by
  obtain ⟨own, target⟩ := start
  cases own with
  | file bytes => exact hnamed.showsSources dir _ found
  | directory entries => exact hnamed.showsSources dir _ found
  | link path =>
      cases target with
      | directory entries =>
          cases hnamed with
          | directory hnames hdistinct hinner =>
              exact FileTree.mem_sourcesOf_iff hdistinct fun entry hentry =>
                (hinner entry hentry).showsSources
      | file bytes =>
          change found ∈ (FileTree.link path).sources dir _ ↔ _
          simp [FileTree.sources, top, above, FileTree.not_hasSource_file]
      | link other =>
          change found ∈ (FileTree.link path).sources dir _ ↔ _
          simp [FileTree.sources, top, FileTree.not_hasSource_link]

theorem pairwise_sources (hnamed : start.top.WellNamed) (dir : String) :
    (start.sources dir).Pairwise Path.Before := by
  obtain ⟨own, target⟩ := start
  cases own with
  | file bytes => exact hnamed.pairwise_sources dir _
  | directory entries => exact hnamed.pairwise_sources dir _
  | link path =>
      cases target with
      | directory entries =>
          cases hnamed with
          | directory hnames hdistinct hinner =>
              exact FileTree.pairwise_sourcesOf hnames hdistinct hinner dir fun entry hentry =>
                (hinner entry hentry).pairwise_sources _ _
      | file _ | link _ => exact (FileTree.WellNamed.link path).pairwise_sources dir _

end WalkStart

/-- What a search from `dir` gives if these are the ways from there to the sources: their
paths, each of them once and in order, or word that there is none. -/
structure Discovered (wanted : List String → Prop) (dir : String)
    (outcome : Except RunError (List String)) : Prop where
  found : (∃ names, wanted names) → ∃ paths, outcome = .ok paths ∧
    (∀ path, path ∈ paths ↔ ∃ names, wanted names ∧ Path.descend dir names = path) ∧
    paths.Pairwise Path.Before ∧ paths.Nodup
  nothing : outcome = .error (.noFilesFound dir) ↔ ¬ ∃ names, wanted names
  one_each : ∀ names others, wanted names → wanted others →
    Path.descend dir names = Path.descend dir others → names = others

section Searches

variable {storage : Storage} {dir : String} {start : WalkStart}

theorem discover_of_start (hstart : storage.start dir = .ok start) :
    discover storage dir = if start.sources dir = [] then .error (.noFilesFound dir)
      else .ok (start.sources dir) := by
  unfold discover
  simp only [hstart, List.isEmpty_iff]

theorem WalkStart.sources_eq_nil_iff (hnamed : start.top.WellNamed) :
    start.sources dir = [] ↔ ¬ ∃ names, start.top.HasSource (start.above dir) names := by
  rw [List.eq_nil_iff_forall_not_mem, not_exists]
  simp only [mem_sources_iff hnamed]
  constructor
  · exact fun hnone names hnames => hnone _ ⟨names, hnames, rfl⟩
  · exact fun hnone path ⟨names, hnames, _⟩ => hnone names hnames

/-- A search finds the sources below its start, each of them once and in the order of their
paths, and fails if and only if there is none.  A source is a file, not reached through a
link, whose extension is exactly one of the two and none of whose directories, from the start
on, ends in `.vendor`; the start itself counts among these unless a link stands there. -/
theorem discover_exact (hstart : storage.start dir = .ok start)
    (hnamed : start.top.WellNamed) :
    Discovered (start.top.HasSource (start.above dir)) dir (discover storage dir) := by
  have hnone : start.sources dir = [] ↔
      ¬ ∃ names, start.top.HasSource (start.above dir) names :=
    WalkStart.sources_eq_nil_iff hnamed
  have hsorted := WalkStart.pairwise_sources hnamed dir
  rw [discover_of_start hstart]
  refine ⟨fun hsome => ?_, ?_, fun names others hnames hothers hsame => ?_⟩
  · rw [if_neg (mt hnone.1 (not_not_intro hsome))]
    refine ⟨_, rfl, fun path => WalkStart.mem_sources_iff hnamed, hsorted, hsorted.imp ?_⟩
    rintro path _ hbefore rfl
    exact Path.not_before_self path hbefore
  · rw [← hnone]
    by_cases hempty : start.sources dir = []
    · simp [hempty]
    · simp [hempty]
  · obtain ⟨bytes, hbytes⟩ := hnames.file
    obtain ⟨more, hmore⟩ := hothers.file
    exact Path.descend_inj (hnamed.of_lookup hbytes).1 (hnamed.of_lookup hmore).1 hsame

end Searches

/-- A directory with sources, one of them in a directory with code of others, and with a link. -/
def mixedTree : FileTree :=
  .directory [("b", .directory [("z.ori", .file .empty)]), ("lib.mod", .file .empty),
    (".ori", .file .empty), ("c.vendor", .directory [("d.ori", .file .empty)]),
    ("notes.vendor.ori", .file .empty), ("a.ori", .link "lib.mod")]

theorem mixedTree_start : mixedTree.storage.start "." = .ok ⟨mixedTree, mixedTree⟩ := by
  simp [FileTree.storage, FileTree.find, FileTree.locate, FileTree.lookup, Path.parts,
    Path.isAbsolute, Text.pieces, bind, Except.bind, pure, Except.pure]

/-- A directory with one file is well named if the file is. -/
theorem FileTree.wellNamed_singleton {name : String} (hname : Path.IsName name) :
    (directory [(name, .file .empty)]).WellNamed := by
  refine .directory ?_ (List.nodup_singleton name) ?_
  · exact List.forall_mem_singleton.2 hname
  · exact List.forall_mem_singleton.2 (.file .empty)

theorem wellNamed_mixedTree : mixedTree.WellNamed := by
  have hinner := FileTree.wellNamed_singleton (show Path.IsName "z.ori" by decide)
  have hvendor := FileTree.wellNamed_singleton (show Path.IsName "d.ori" by decide)
  refine .directory (by decide) (by decide) ?_
  simp [hinner, hvendor, FileTree.WellNamed.file, FileTree.WellNamed.link]

theorem discover_exact_mixedTree :
    let start : WalkStart := ⟨mixedTree, mixedTree⟩
    mixedTree.storage.start "." = .ok start ∧ start.top.WellNamed ∧
      Discovered (start.top.HasSource (start.above ".")) "." (discover mixedTree.storage ".") :=
  have hnamed := WalkStart.wellNamed_top wellNamed_mixedTree mixedTree_start
  ⟨mixedTree_start, hnamed, discover_exact mixedTree_start hnamed⟩

/-- A link whose name is that of a directory with code of others leads to a directory. -/
def linkedTree : FileTree :=
  .directory [("lib", .directory [("a.ori", .file .empty)]), ("x.vendor", .link "lib")]

theorem linkedTree_start : linkedTree.storage.start "x.vendor" =
    .ok ⟨.link "lib", .directory [("a.ori", .file .empty)]⟩ := by
  simp [FileTree.storage, FileTree.find, FileTree.locate, FileTree.lookup, FileTree.entries,
    List.lookup_cons, Path.parts, Path.isAbsolute, Text.pieces, FileTree.maxLinks, linkedTree,
    bind, Except.bind, pure, Except.pure]

theorem discover_linkedTree :
    discover linkedTree.storage "x.vendor" = .ok ["x.vendor/a.ori"] := by
  have hsources : (⟨.link "lib", .directory [("a.ori", .file .empty)]⟩ : WalkStart).sources
      "x.vendor" = ["x.vendor/a.ori"] := by
    change FileTree.sourcesOf "x.vendor" [("a.ori", .file .empty)] = _
    simp only [FileTree.sourcesOf, FileTree.listings, FileTree.sources, List.mergeSort_singleton]
    decide
  unfold discover
  rw [linkedTree_start]
  simp only [hsources]
  rfl

/-- The name of a link at the start is not looked at: a search from there finds sources below
a path that ends as those of directories with code of others do. -/
theorem not_discovered_linkedTree :
    linkedTree.storage.start "x.vendor" =
      .ok ⟨.link "lib", .directory [("a.ori", .file .empty)]⟩ ∧
    discover linkedTree.storage "x.vendor" = .ok ["x.vendor/a.ori"] ∧
    ¬ Discovered ((FileTree.directory [("a.ori", .file .empty)]).HasSource
        [Path.lastName "x.vendor"]) "x.vendor" (discover linkedTree.storage "x.vendor") := by
  refine ⟨linkedTree_start, discover_linkedTree, fun hdiscovered => ?_⟩
  have hvendor : Path.EndsInVendor (Path.lastName "x.vendor") := Path.isVendor_iff.1 (by decide)
  have hnone : ¬ ∃ names, (FileTree.directory [("a.ori", .file .empty)]).HasSource
      [Path.lastName "x.vendor"] names := by
    rintro ⟨names, hnames⟩
    have hdistinct : ([("a.ori", FileTree.file .empty)].map Prod.fst).Nodup :=
      List.nodup_singleton "a.ori"
    have houtside := ((FileTree.hasSource_directory_iff hdistinct).1 hnames).1
    exact houtside _ List.mem_cons_self hvendor
  have hnothing := hdiscovered.nothing.2 hnone
  rw [discover_linkedTree] at hnothing
  exact nomatch hnothing

end OriSyntax
