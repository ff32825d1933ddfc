import Mathlib.Data.List.Forall2
import OriSyntax.CommandLine

/-!
What a run over files leaves behind.  Either something it needs is missing, and then it says
so and shows nothing of any file; or all files can be read, and then it shows them one after
another in the order in which they were found.
-/

namespace OriSyntax

section Traversals

variable {α β ε : Type} {step : α → Except ε β} {items : List α}

/-- A traversal succeeds if and only if every one of its steps does. -/
theorem mapM_eq_ok_iff {results : List β} :
    items.mapM step = .ok results ↔
      List.Forall₂ (fun item result => step item = .ok result) items results := by
  induction items generalizing results with
  | nil => cases results <;> simp [pure, Except.pure]
  | cons item rest ih =>
      rw [List.mapM_cons]
      cases hitem : step item with
      | error cause => cases results <;> simp [bind, Except.bind, hitem]
      | ok result =>
          cases hrest : rest.mapM step with
          | error cause => cases results <;> simp [bind, Except.bind, ← ih, hrest]
          | ok others =>
              cases results <;>
                simp [bind, Except.bind, pure, Except.pure, ← ih, hrest, hitem]

theorem exists_mem_of_forall₂ {related : α → β → Prop} {results : List β}
    (hitems : List.Forall₂ related items results) :
    ∀ item ∈ items, ∃ result ∈ results, related item result := by
  induction hitems with
  | nil => exact fun _ hnil => nomatch hnil
  | cons hitem hrest ih =>
      rw [List.forall_mem_cons]
      constructor
      · exact ⟨_, List.mem_cons_self, hitem⟩
      · intro other hother
        obtain ⟨result, hresult, hrelated⟩ := ih other hother
        exact ⟨result, List.mem_cons_of_mem _ hresult, hrelated⟩

/-- A traversal fails as one of its steps does. -/
theorem exists_mem_of_mapM_eq_error {cause : ε} (hfails : items.mapM step = .error cause) :
    ∃ item ∈ items, step item = .error cause := by
  induction items with
  | nil => exact nomatch hfails
  | cons item rest ih =>
      rw [List.mapM_cons] at hfails
      cases hitem : step item with
      | error first =>
          rw [hitem] at hfails
          obtain rfl : first = cause := Except.error.inj hfails
          exact ⟨item, List.mem_cons_self, hitem⟩
      | ok result =>
          cases hrest : rest.mapM step with
          | error later =>
              simp only [hitem, hrest, bind, Except.bind, Except.error.injEq] at hfails
              obtain ⟨other, hother, hcause⟩ := ih (hfails ▸ hrest)
              exact ⟨other, List.mem_cons_of_mem item hother, hcause⟩
          | ok others =>
              rw [hitem, hrest] at hfails
              exact nomatch hfails

end Traversals

namespace FileTree

/-- The path leads to a file whose bytes are this text. -/
def Holds (tree : FileTree) (path text : String) : Prop :=
  ∃ bytes, tree.find true path = .ok (.file bytes) ∧ String.fromUTF8? bytes = some text

/-- The path leads to no text, for this reason. -/
inductive Refuses (tree : FileTree) (path : String) : AccessError → Prop
  | noWay {cause : AccessError} (hcause : tree.find true path = .error cause) :
      Refuses tree path cause
  | noFile {found : FileTree} (hfound : tree.find true path = .ok found)
      (hfile : ∀ bytes, found ≠ .file bytes) : Refuses tree path .isDirectory
  | noText {bytes : ByteArray} (hbytes : tree.find true path = .ok (.file bytes))
      (htext : String.fromUTF8? bytes = none) : Refuses tree path .notText

/-- A walk begins at the path: it leads to a place of its own and, if that is a link, to
another one. -/
def Starts (tree : FileTree) (dir : String) (start : WalkStart) : Prop :=
  tree.find false dir = .ok start.own ∧ tree.find true dir = .ok start.target

/-- A walk from the path finds these sources, one at least. -/
def Finds (tree : FileTree) (dir : String) (sources : List String) : Prop :=
  ∃ start, tree.Starts dir start ∧ start.sources dir = sources ∧ sources ≠ []

variable {tree : FileTree} {path dir : String}

theorem storage_read_of_error {cause : AccessError} (hcause : tree.find true path = .error cause) :
    tree.storage.read path = .error cause := by
  simp only [storage, hcause, bind, Except.bind]

theorem storage_read_of_file {bytes : ByteArray}
    (hbytes : tree.find true path = .ok (.file bytes)) :
    tree.storage.read path = (String.fromUTF8? bytes).elim (.error .notText) .ok := by
  simp only [storage, hbytes, bind, Except.bind]
  cases String.fromUTF8? bytes <;> rfl

theorem storage_read_of_noFile {found : FileTree} (hfound : tree.find true path = .ok found)
    (hfile : ∀ bytes, found ≠ .file bytes) : tree.storage.read path = .error .isDirectory := by
  simp only [storage, hfound, bind, Except.bind]
  cases found with
  | file bytes => exact absurd rfl (hfile bytes)
  | directory _ | link _ => rfl

/-- Reading gives the text that the path leads to, or tells why there is none. -/
theorem storage_read_spec (tree : FileTree) (path : String) :
    (∃ text, tree.Holds path text ∧ tree.storage.read path = .ok text) ∨
      ∃ cause, tree.Refuses path cause ∧ tree.storage.read path = .error cause := by
  cases hfound : tree.find true path with
  | error cause => exact .inr ⟨cause, .noWay hfound, storage_read_of_error hfound⟩
  | ok found =>
      cases found with
      | file bytes =>
          have hread := storage_read_of_file hfound
          cases htext : String.fromUTF8? bytes with
          | some text =>
              rw [htext] at hread
              exact .inl ⟨text, ⟨bytes, hfound, htext⟩, hread⟩
          | none =>
              rw [htext] at hread
              exact .inr ⟨.notText, .noText hfound htext, hread⟩
      | directory _ | link _ =>
          exact .inr ⟨.isDirectory, .noFile hfound nofun, storage_read_of_noFile hfound nofun⟩

theorem not_refuses_of_holds {text : String} {cause : AccessError}
    (hholds : tree.Holds path text) : ¬ tree.Refuses path cause := by
  obtain ⟨bytes, hbytes, htext⟩ := hholds
  rintro (hcause | ⟨hfound, hfile⟩ | ⟨hother, hnone⟩)
  · exact nomatch hbytes.symm.trans hcause
  · exact hfile bytes (Except.ok.inj (hfound.symm.trans hbytes))
  · obtain rfl : bytes = _ := FileTree.file.inj (Except.ok.inj (hbytes.symm.trans hother))
    exact nomatch htext.symm.trans hnone

theorem storage_read_eq_ok_iff {text : String} :
    tree.storage.read path = .ok text ↔ tree.Holds path text := by
  constructor
  · intro hread
    rcases storage_read_spec tree path with ⟨found, hholds, hfound⟩ | ⟨cause, -, hcause⟩
    · obtain rfl := Except.ok.inj (hfound.symm.trans hread)
      exact hholds
    · exact nomatch hcause.symm.trans hread
  · rintro ⟨bytes, hbytes, htext⟩
    rw [storage_read_of_file hbytes, htext]
    rfl

theorem Holds.unique {text other : String} (htext : tree.Holds path text)
    (hother : tree.Holds path other) : text = other :=
  Except.ok.inj ((storage_read_eq_ok_iff.2 htext).symm.trans (storage_read_eq_ok_iff.2 hother))

theorem refuses_of_storage_read {cause : AccessError}
    (hfails : tree.storage.read path = .error cause) : tree.Refuses path cause := by
  rcases storage_read_spec tree path with ⟨text, -, hread⟩ | ⟨other, hrefuses, hother⟩
  · exact nomatch hread.symm.trans hfails
  · obtain rfl := Except.error.inj (hother.symm.trans hfails)
    exact hrefuses

theorem storage_start_eq_ok_iff {start : WalkStart} :
    tree.storage.start dir = .ok start ↔ tree.Starts dir start := by
  unfold storage Starts
  cases hown : tree.find false dir with
  | error cause => simp [bind, Except.bind, hown]
  | ok own =>
      cases htarget : tree.find true dir with
      | error cause => simp [bind, Except.bind, hown, htarget]
      | ok target =>
          cases start
          simp [bind, Except.bind, pure, Except.pure, hown, htarget]

/-- A walk that does not begin is stopped where the path leads, or where its last link
does. -/
theorem find_of_storage_start {cause : AccessError}
    (hfails : tree.storage.start dir = .error cause) :
    ∃ followLast, tree.find followLast dir = .error cause := by
  unfold storage at hfails
  cases hown : tree.find false dir with
  | error first =>
      simp only [hown, bind, Except.bind, Except.error.injEq] at hfails
      exact ⟨false, hfails ▸ hown⟩
  | ok own =>
      cases htarget : tree.find true dir with
      | error second =>
          simp only [hown, htarget, bind, Except.bind, Except.error.injEq] at hfails
          exact ⟨true, hfails ▸ htarget⟩
      | ok target => simp [hown, htarget, bind, Except.bind, pure, Except.pure] at hfails

end FileTree

/-- A run cannot begin, for this reason. -/
inductive Inputs.Fails (inputs : Inputs) (tree : FileTree) : RunError → Prop
  | noInput (hfiles : inputs.files = []) (hdirectories : inputs.directories = []) :
      Fails inputs tree .noInput
  | noFilesFound {dir : String} {start : WalkStart} (hdir : dir ∈ inputs.directories)
      (hstart : tree.Starts dir start) (hnone : start.sources dir = []) :
      Fails inputs tree (.noFilesFound dir)
  | unwalkable {dir : String} {cause : AccessError} {followLast : Bool}
      (hdir : dir ∈ inputs.directories) (hcause : tree.find followLast dir = .error cause) :
      Fails inputs tree (.unwalkable dir cause)

/-- The files of a run: those given, then those of each directory given, in order. -/
structure Inputs.Resolves (inputs : Inputs) (tree : FileTree) (paths : List String) : Prop where
  given : inputs.files ≠ [] ∨ inputs.directories ≠ []
  listed : ∃ found, List.Forall₂ tree.Finds inputs.directories found ∧
    paths = inputs.files ++ found.flatten

section Resolution

variable {inputs : Inputs} {tree : FileTree} {dir : String}

theorem discover_eq_ok_iff {sources : List String} :
    discover tree.storage dir = .ok sources ↔ tree.Finds dir sources := by
  unfold discover FileTree.Finds
  simp only [← FileTree.storage_start_eq_ok_iff]
  cases hstart : tree.storage.start dir with
  | error cause => simp
  | ok start =>
      by_cases hempty : start.sources dir = []
      · simp_all
      · simp only [List.isEmpty_iff, hempty, if_false, Except.ok.injEq, exists_eq_left']
        constructor
        · rintro rfl
          exact ⟨rfl, hempty⟩
        · exact fun hsources => hsources.1

theorem fails_of_discover (hdir : dir ∈ inputs.directories) {cause : RunError}
    (hfails : discover tree.storage dir = .error cause) : inputs.Fails tree cause := by
  unfold discover at hfails
  cases hstart : tree.storage.start dir with
  | error reason =>
      simp only [hstart, Except.error.injEq] at hfails
      obtain ⟨followLast, hreason⟩ := FileTree.find_of_storage_start hstart
      exact hfails ▸ .unwalkable hdir hreason
  | ok start =>
      by_cases hempty : start.sources dir = []
      · simp only [hstart, hempty, List.isEmpty_nil, if_true, Except.error.injEq] at hfails
        exact hfails ▸ .noFilesFound hdir (FileTree.storage_start_eq_ok_iff.1 hstart) hempty
      · simp [hstart, hempty] at hfails

/-- Where a walk finds sources it does not fail. -/
theorem not_fails_of_finds {sources : List String} (hfinds : tree.Finds dir sources) :
    (∀ start, tree.Starts dir start → start.sources dir ≠ []) ∧
      ∀ followLast cause, tree.find followLast dir ≠ .error cause := by
  obtain ⟨start, ⟨hown, htarget⟩, rfl, hsome⟩ := hfinds
  constructor
  · rintro ⟨own, target⟩ ⟨hother, hgoal⟩
    have hsameOwn := Except.ok.inj (hown.symm.trans hother)
    have hsameTarget := Except.ok.inj (htarget.symm.trans hgoal)
    cases start
    simp only at hsameOwn hsameTarget
    rwa [← hsameOwn, ← hsameTarget]
  · intro followLast cause hcause
    cases followLast with
    | false => exact nomatch hown.symm.trans hcause
    | true => exact nomatch htarget.symm.trans hcause

/-- Where something is given, resolving looks for the sources of each directory. -/
theorem resolve_of_given (hgiven : inputs.files ≠ [] ∨ inputs.directories ≠ []) :
    inputs.resolve tree.storage =
      (inputs.directories.mapM (discover tree.storage)).map (inputs.files ++ ·.flatten) := by
  have hsome : (inputs.files.isEmpty && inputs.directories.isEmpty) = false := by
    simpa [← not_and_or] using hgiven
  unfold Inputs.resolve
  rw [hsome]
  cases inputs.directories.mapM (discover tree.storage) <;> rfl

theorem resolve_of_noInput (hfiles : inputs.files = []) (hdirectories : inputs.directories = []) :
    inputs.resolve tree.storage = .error .noInput := by
  simp [Inputs.resolve, hfiles, hdirectories, throw, throwThe, MonadExceptOf.throw]

theorem resolve_eq_ok_iff {paths : List String} :
    inputs.resolve tree.storage = .ok paths ↔ inputs.Resolves tree paths := by
  by_cases hgiven : inputs.files ≠ [] ∨ inputs.directories ≠ []
  · rw [resolve_of_given hgiven]
    constructor
    · intro hpaths
      cases hfound : inputs.directories.mapM (discover tree.storage) with
      | error cause =>
          rw [hfound] at hpaths
          exact nomatch hpaths
      | ok found =>
          rw [hfound] at hpaths
          refine ⟨hgiven, found, ?_, (Except.ok.inj hpaths).symm⟩
          exact (mapM_eq_ok_iff.1 hfound).imp fun _ _ => discover_eq_ok_iff.1
    · rintro ⟨-, found, hfound, rfl⟩
      rw [mapM_eq_ok_iff.2 (hfound.imp fun _ _ => discover_eq_ok_iff.2)]
      rfl
  · obtain ⟨hfiles, hdirectories⟩ : inputs.files = [] ∧ inputs.directories = [] := by
      simpa [not_or] using hgiven
    rw [resolve_of_noInput hfiles hdirectories]
    constructor
    · exact fun hpaths => nomatch hpaths
    · exact fun hresolves => absurd hresolves.given hgiven

theorem fails_of_resolve {cause : RunError}
    (hfails : inputs.resolve tree.storage = .error cause) : inputs.Fails tree cause := by
  by_cases hgiven : inputs.files ≠ [] ∨ inputs.directories ≠ []
  · rw [resolve_of_given hgiven] at hfails
    cases hfound : inputs.directories.mapM (discover tree.storage) with
    | ok found =>
        rw [hfound] at hfails
        exact nomatch hfails
    | error first =>
        rw [hfound] at hfails
        obtain rfl := Except.error.inj hfails
        obtain ⟨dir, hdir, hcause⟩ := exists_mem_of_mapM_eq_error hfound
        exact fails_of_discover hdir hcause
  · obtain ⟨hfiles, hdirectories⟩ : inputs.files = [] ∧ inputs.directories = [] := by
      simpa [not_or] using hgiven
    rw [resolve_of_noInput hfiles hdirectories] at hfails
    obtain rfl := Except.error.inj hfails
    exact .noInput hfiles hdirectories

theorem not_fails_of_resolves {paths : List String} (hresolves : inputs.Resolves tree paths)
    (cause : RunError) : ¬ inputs.Fails tree cause := by
  obtain ⟨hgiven, found, hfound, -⟩ := hresolves
  have hfinds {dir : String} (hdir : dir ∈ inputs.directories) :
      ∃ sources, tree.Finds dir sources := by
    obtain ⟨sources, -, hsources⟩ := exists_mem_of_forall₂ hfound dir hdir
    exact ⟨sources, hsources⟩
  rintro (⟨hfiles, hdirectories⟩ | ⟨hdir, hstart, hnone⟩ | ⟨hdir, hcause⟩)
  · exact hgiven.elim (fun hsome => hsome hfiles) fun hsome => hsome hdirectories
  · obtain ⟨sources, hsources⟩ := hfinds hdir
    exact (not_fails_of_finds hsources).1 _ hstart hnone
  · obtain ⟨sources, hsources⟩ := hfinds hdir
    exact (not_fails_of_finds hsources).2 _ _ hcause

theorem Inputs.Resolves.unique {paths others : List String}
    (hpaths : inputs.Resolves tree paths) (hothers : inputs.Resolves tree others) :
    paths = others :=
  Except.ok.inj ((resolve_eq_ok_iff.2 hpaths).symm.trans (resolve_eq_ok_iff.2 hothers))

end Resolution

/-- The line for a diagnostic of the file at `path`: severity and code, path and place, the
message and the token found there. -/
def Diagnostic.headline (inColour : Bool) (path : String) (diagnostic : Diagnostic) : String :=
  (if inColour then "\x1b[1;31merror\x1b[0m\x1b[1m[" ++ diagnostic.code.text ++ "]\x1b[0m"
    else "error[" ++ diagnostic.code.text ++ "]") ++ ": " ++ path ++ ":" ++
    toString diagnostic.got.line ++ ":" ++ toString diagnostic.got.column ++ " " ++
    diagnostic.message ++ " (got " ++ diagnostic.got.kind.name ++ " " ++
    Text.quoted diagnostic.got.value ++ ")"

/-- The line for a note. -/
def noteLine (inColour : Bool) (note : String) : String :=
  (if inColour then "  = \x1b[1mnote\x1b[0m: " else "  = note: ") ++ note

/-- The lines for a diagnostic: one of its own, and one for each of its notes. -/
def Diagnostic.lines (inColour : Bool) (path : String) (diagnostic : Diagnostic) : List String :=
  diagnostic.headline inColour path :: diagnostic.notes.map (noteLine inColour)

/-- The line that counts the diagnostics of a run. -/
def summaryLine (inColour : Bool) (count : Nat) : String :=
  (if inColour then "\x1b[1;31merror\x1b[0m" else "error") ++ ": " ++ toString count ++
    " syntax error" ++ (if count = 1 then "" else "s") ++ " reported"

/-- Lines as they are written, each with its end. -/
def written (lines : List String) : String := String.join (lines.map (· ++ "\n"))

theorem written_cons (line : String) (rest : List String) :
    written (line :: rest) = line ++ "\n" ++ written rest := by
  simp [written]

theorem written_append (lines others : List String) :
    written (lines ++ others) = written lines ++ written others := by
  simp [written]

theorem written_flatMap {α : Type} (lines : α → List String) (items : List α) :
    written (items.flatMap lines) = String.join (items.map fun item => written (lines item)) := by
  induction items with
  | nil => rfl
  | cons item rest ih =>
      rw [List.flatMap_cons, written_append, ih]
      simp

namespace Terminal

theorem headline_eq (terminal : Terminal) (path : String) (diagnostic : Diagnostic) :
    terminal.asError diagnostic.severity.text ++
        terminal.asBold ("[" ++ diagnostic.code.text ++ "]") ++ ": " ++ (path ++ ":") ++
        diagnostic.text = diagnostic.headline terminal.color path := by
  have hplace : diagnostic.got.position.text =
      toString diagnostic.got.line ++ ":" ++ toString diagnostic.got.column := by
    simp only [Position.text, Token.position]
    rfl
  apply String.toList_inj.1
  cases hcolor : terminal.color <;>
    simp [Diagnostic.headline, Diagnostic.text, Token.describe, asError, asBold, styled, hcolor,
      Severity.text, hplace]

theorem note_eq (terminal : Terminal) (note : String) :
    "  = " ++ terminal.asBold "note" ++ ": " ++ note = noteLine terminal.color note := by
  apply String.toList_inj.1
  cases hcolor : terminal.color <;> simp [noteLine, asBold, styled, hcolor]

/-- What is shown of a diagnostic are its lines. -/
theorem showDiagnostic_eq (terminal : Terminal) (path : String) (diagnostic : Diagnostic) :
    { terminal with path := some path }.showDiagnostic diagnostic =
      written (diagnostic.lines terminal.color path) := by
  have hheadline := headline_eq { terminal with path := some path } path diagnostic
  have hnotes : (diagnostic.notes.map fun note =>
      "  = " ++ asBold ⟨terminal.color, some path⟩ "note" ++ ": " ++ note ++ "\n") =
        (diagnostic.notes.map (noteLine terminal.color)).map (· ++ "\n") := by
    rw [List.map_map]
    exact List.map_congr_left fun note _ =>
      congrArg (· ++ "\n") (note_eq ⟨terminal.color, some path⟩ note)
  rw [Diagnostic.lines, written_cons, written, ← hnotes, ← hheadline]
  rfl

/-- The summary is one line, if there is anything to count. -/
theorem showSummary_eq (terminal : Terminal) (count : Nat) : terminal.showSummary count =
    written (if count = 0 then [] else [summaryLine terminal.color count]) := by
  unfold showSummary
  by_cases hcount : count = 0
  · rw [if_pos hcount, if_pos hcount]
    rfl
  · rw [if_neg hcount, if_neg hcount, written_cons]
    apply String.toList_inj.1
    cases hcolor : terminal.color <;>
      simp [summaryLine, asError, styled, hcolor, written, toString]

end Terminal

/-- What a command shows of a text: the listing of its tokens, or that of its tree unless it is
quiet. -/
def Command.shown (command : Command) (text : String) : String :=
  match command.action with
  | .lex => String.join ((Source.tokens text).map FileReport.tokenLine)
  | .parse => if command.quiet then "" else (Source.parse text).file.listing

/-- The diagnostics that a command finds in a text: its illegal tokens, or the mistakes in its
tree. -/
def Command.found (command : Command) (text : String) : List Diagnostic :=
  match command.action with
  | .lex => ((Source.tokens text).filter (·.kind = .illegal)).map Diagnostic.illegal
  | .parse => (Source.parse text).diagnostics

/-- A run shows no file, for this reason: it cannot begin, or one of its files cannot be
read, wherever in the list it stands. -/
inductive Command.Fails (command : Command) (tree : FileTree) : RunError → Prop
  | inputs {cause : RunError} (hinputs : command.inputs.Fails tree cause) :
      Fails command tree cause
  | unreadable {paths : List String} {path : String} {cause : AccessError}
      (hpaths : command.inputs.Resolves tree paths) (hpath : path ∈ paths)
      (hcause : tree.Refuses path cause) : Fails command tree (.unreadable path cause)

/-- The files of a run in order, each with its path and its text. -/
structure Command.Reads (command : Command) (tree : FileTree) (files : List (String × String)) :
    Prop where
  resolves : command.inputs.Resolves tree (files.map Prod.fst)
  holds : ∀ file ∈ files, tree.Holds file.1 file.2

/-- All files of a run can be found and read, and none of them has a diagnostic. -/
def Command.Clean (command : Command) (tree : FileTree) : Prop :=
  ∃ paths, command.inputs.Resolves tree paths ∧ ∀ path ∈ paths, ∃ text,
    tree.Holds path text ∧ command.found text = []

namespace Command

variable {command : Command} {tree : FileTree}

theorem report_eq (command : Command) (path text : String) :
    command.report path text = ⟨path, command.shown text, command.found text⟩ := by
  obtain ⟨action, inputs, verbose, quiet⟩ := command
  cases action <;> rfl

/-- Files of which all texts can be read. -/
theorem exists_files {paths : List String} {reports : List FileReport}
    (hreports : List.Forall₂ (fun path report =>
      ∃ text, tree.Holds path text ∧ report = command.report path text) paths reports) :
    ∃ files : List (String × String), files.map Prod.fst = paths ∧
      (∀ file ∈ files, tree.Holds file.1 file.2) ∧
      reports = files.map fun file => command.report file.1 file.2 := by
  induction hreports with
  | nil => exact ⟨[], rfl, fun _ hnil => (nomatch hnil), rfl⟩
  | @cons path report paths reports hreport _ ih =>
      obtain ⟨text, hholds, rfl⟩ := hreport
      obtain ⟨files, rfl, hfiles, rfl⟩ := ih
      exact ⟨(path, text) :: files, rfl, List.forall_mem_cons.2 ⟨hholds, hfiles⟩, rfl⟩

/-- The report on the file at a path, or why there is none. -/
def reportAt (command : Command) (storage : Storage) (path : String) :
    Except RunError FileReport :=
  match storage.read path with
  | .ok source => .ok (command.report path source)
  | .error cause => .error (.unreadable path cause)

theorem reports_of_resolve {paths : List String}
    (hpaths : command.inputs.resolve tree.storage = .ok paths) :
    command.reports tree.storage = paths.mapM (command.reportAt tree.storage) := by
  unfold reports
  rw [hpaths]
  rfl

theorem reports_of_resolve_error {cause : RunError}
    (hfails : command.inputs.resolve tree.storage = .error cause) :
    command.reports tree.storage = .error cause := by
  unfold reports
  rw [hfails]
  rfl

theorem holds_of_reportAt {path : String} {report : FileReport}
    (hreport : command.reportAt tree.storage path = .ok report) :
    ∃ text, tree.Holds path text ∧ report = command.report path text := by
  unfold reportAt at hreport
  cases hread : tree.storage.read path with
  | error cause => simp [hread] at hreport
  | ok text =>
      simp only [hread, Except.ok.injEq] at hreport
      exact ⟨text, FileTree.storage_read_eq_ok_iff.1 hread, hreport.symm⟩

theorem refuses_of_reportAt {path : String} {cause : RunError}
    (hfails : command.reportAt tree.storage path = .error cause) :
    ∃ reason, tree.Refuses path reason ∧ cause = .unreadable path reason := by
  unfold reportAt at hfails
  cases hread : tree.storage.read path with
  | ok text => simp [hread] at hfails
  | error reason =>
      simp only [hread, Except.error.injEq] at hfails
      exact ⟨reason, FileTree.refuses_of_storage_read hread, hfails.symm⟩

/-- Either all files are reported on, or the run tells why not. -/
theorem reports_spec (command : Command) (tree : FileTree) :
    (∃ files, command.Reads tree files ∧ command.reports tree.storage =
      .ok (files.map fun file => command.report file.1 file.2)) ∨
    ∃ cause, command.Fails tree cause ∧ command.reports tree.storage = .error cause := by
  cases hpaths : command.inputs.resolve tree.storage with
  | error cause =>
      exact .inr ⟨cause, .inputs (fails_of_resolve hpaths), reports_of_resolve_error hpaths⟩
  | ok paths =>
      have hresolves := resolve_eq_ok_iff.1 hpaths
      rw [reports_of_resolve hpaths]
      cases hreports : paths.mapM (command.reportAt tree.storage) with
      | error cause =>
          obtain ⟨path, hpath, hfails⟩ := exists_mem_of_mapM_eq_error hreports
          obtain ⟨reason, hrefuses, rfl⟩ := refuses_of_reportAt hfails
          exact .inr ⟨_, .unreadable hresolves hpath hrefuses, rfl⟩
      | ok reports =>
          have hheld := (mapM_eq_ok_iff.1 hreports).imp fun _ _ => holds_of_reportAt
          obtain ⟨files, rfl, hholds, rfl⟩ := exists_files hheld
          exact .inl ⟨files, ⟨hresolves, hholds⟩, rfl⟩

/-- Where all texts can be read, nothing is missing. -/
theorem not_fails_of_holds {paths : List String} (hresolves : command.inputs.Resolves tree paths)
    (hholds : ∀ path ∈ paths, ∃ text, tree.Holds path text) (cause : RunError) :
    ¬ command.Fails tree cause := by
  rintro (hinputs | ⟨hother, hpath, hrefuses⟩)
  · exact not_fails_of_resolves hresolves cause hinputs
  · obtain ⟨text, htext⟩ := hholds _ (hother.unique hresolves ▸ hpath)
    exact FileTree.not_refuses_of_holds htext hrefuses

theorem Reads.not_fails {files : List (String × String)} (hreads : command.Reads tree files)
    (cause : RunError) : ¬ command.Fails tree cause := by
  apply not_fails_of_holds hreads.resolves
  rw [List.forall_mem_map]
  exact fun file hfile => ⟨file.2, hreads.holds file hfile⟩

/-- How many diagnostics the files have. -/
def total (command : Command) (files : List (String × String)) : Nat :=
  (files.flatMap fun file => command.found file.2).length

/-- What is shown of the files in order, each below a line with its path if there are more
than one. -/
def outputs (command : Command) (files : List (String × String)) : String :=
  String.join (files.map fun file =>
    (if 1 < files.length then "== " ++ file.1 ++ " ==\n" else "") ++ command.shown file.2)

/-- The lines for the diagnostics of the files in order, each with the path of its own file,
and then, if there is one, a line that counts them. -/
def complaints (command : Command) (inColour : Bool) (files : List (String × String)) :
    List String :=
  (files.flatMap fun file => (command.found file.2).flatMap (·.lines inColour file.1)) ++
    if command.total files = 0 then [] else [summaryLine inColour (command.total files)]

variable {files : List (String × String)}

theorem total_eq_zero_iff :
    command.total files = 0 ↔ ∀ file ∈ files, command.found file.2 = [] := by
  rw [total, List.length_eq_zero_iff, List.flatMap_eq_nil_iff]

/-- A run that reads its files is clean if and only if it has no diagnostics. -/
theorem Reads.total_eq_zero_iff_clean (hreads : command.Reads tree files) :
    command.total files = 0 ↔ command.Clean tree := by
  rw [total_eq_zero_iff]
  constructor
  · intro hnone
    refine ⟨_, hreads.resolves, ?_⟩
    rw [List.forall_mem_map]
    exact fun file hfile => ⟨file.2, hreads.holds file hfile, hnone file hfile⟩
  · rintro ⟨paths, hresolves, hclean⟩ file hfile
    have hpath : file.1 ∈ paths := by
      rw [hresolves.unique hreads.resolves]
      exact List.mem_map_of_mem hfile
    obtain ⟨text, hholds, hnone⟩ := hclean file.1 hpath
    rwa [← hholds.unique (hreads.holds file hfile)]

/-- Only one list of files can be read. -/
theorem Reads.unique {others : List (String × String)} (hfiles : command.Reads tree files)
    (hothers : command.Reads tree others) : files = others := by
  have hpaths := hfiles.resolves.unique hothers.resolves
  have hholds := hfiles.holds
  have hholds' := hothers.holds
  clear hfiles hothers
  induction files generalizing others with
  | nil => exact (List.map_eq_nil_iff.1 hpaths.symm).symm
  | cons file rest ih =>
      cases others with
      | nil => exact nomatch hpaths
      | cons other others =>
          obtain ⟨hpath, hrest⟩ := List.cons.inj hpaths
          rw [List.forall_mem_cons] at hholds hholds'
          have htext := hholds.1.unique (hpath ▸ hholds'.1)
          rw [ih hrest hholds.2 hholds'.2, Prod.ext hpath htext]

theorem Clean.not_fails (hclean : command.Clean tree) (cause : RunError) :
    ¬ command.Fails tree cause := by
  obtain ⟨paths, hresolves, hclean⟩ := hclean
  apply not_fails_of_holds hresolves
  intro path hpath
  obtain ⟨text, hholds, -⟩ := hclean path hpath
  exact ⟨text, hholds⟩

theorem run_of_reports (terminal : Terminal)
    (hreports : command.reports tree.storage =
      .ok (files.map fun file => command.report file.1 file.2)) :
    command.run terminal tree.storage =
      ⟨if command.total files = 0 then 0 else 1, command.outputs files,
        written (command.complaints terminal.color files)⟩ := by
  have hcount : ((files.map fun file => command.report file.1 file.2).flatMap
      (·.diagnostics)).length = command.total files := by
    simp only [List.flatMap_map, report_eq, total]
  have herrors : (files.map fun file => command.report file.1 file.2).map
      (RunReport.fileErrors terminal) = files.map fun file =>
        written ((command.found file.2).flatMap (·.lines terminal.color file.1)) := by
    rw [List.map_map]
    apply List.map_congr_left
    intro file _
    have hshown := funext (terminal.showDiagnostic_eq file.1)
    simp only [Function.comp_apply, RunReport.fileErrors, Terminal.showDiagnostics, report_eq,
      hshown, written_flatMap]
  unfold run
  rw [hreports]
  simp only [RunReport.ofFiles, hcount]
  congr 1
  · split <;> simp
  · simp [outputs, RunReport.fileOutput, Function.comp_def, report_eq]
  · rw [complaints, written_append, written_flatMap, herrors, Terminal.showSummary_eq]

theorem run_of_reports_error (terminal : Terminal) {cause : RunError}
    (hfails : command.reports tree.storage = .error cause) :
    command.run terminal tree.storage = ⟨1, "", "error: " ++ cause.message ++ "\n"⟩ := by
  unfold run
  rw [hfails]

theorem Reads.run_eq {files : List (String × String)} (hreads : command.Reads tree files)
    (terminal : Terminal) :
    command.run terminal tree.storage =
      ⟨if command.total files = 0 then 0 else 1, command.outputs files,
        written (command.complaints terminal.color files)⟩ := by
  rcases reports_spec command tree with ⟨others, hothers, hreports⟩ | ⟨cause, hcause, -⟩
  · rw [hreads.unique hothers]
    exact run_of_reports terminal hreports
  · exact absurd hcause (hreads.not_fails cause)

end Command

/-- What a run leaves behind.  Its code is zero if and only if all of its files can be found
and read and none has a diagnostic.  If anything is missing, it tells one reason and shows
nothing of any file.  Otherwise it shows all files in the order in which they were found, and
writes a line for each diagnostic with the path of its file, the notes below, and one line that
counts them if there are any. -/
theorem run_outcome (command : Command) (terminal : Terminal) (tree : FileTree) :
    ((command.run terminal tree.storage).code = 0 ↔ command.Clean tree) ∧
    ((∃ cause, command.Fails tree cause) → ∃ cause, command.Fails tree cause ∧
      command.run terminal tree.storage = ⟨1, "", "error: " ++ cause.message ++ "\n"⟩) ∧
    ((¬ ∃ cause, command.Fails tree cause) → ∃ files, command.Reads tree files) ∧
    ∀ files, command.Reads tree files → command.run terminal tree.storage =
      ⟨if command.total files = 0 then 0 else 1, command.outputs files,
        written (command.complaints terminal.color files)⟩ := by
  refine ⟨?_, ?_, ?_, fun files hreads => hreads.run_eq terminal⟩
  · rcases Command.reports_spec command tree with
      ⟨files, hreads, -⟩ | ⟨cause, hcause, hreports⟩
    · rw [hreads.run_eq terminal, ← hreads.total_eq_zero_iff_clean]
      by_cases htotal : command.total files = 0 <;> simp [htotal]
    · rw [Command.run_of_reports_error terminal hreports]
      constructor
      · exact fun hcode => nomatch hcode
      · exact fun hclean => absurd hcause (hclean.not_fails cause)
  · rintro ⟨cause, hcause⟩
    rcases Command.reports_spec command tree with
      ⟨files, hreads, -⟩ | ⟨first, hfirst, hreports⟩
    · exact absurd hcause (hreads.not_fails cause)
    · exact ⟨first, hfirst, Command.run_of_reports_error terminal hreports⟩
  · intro hnone
    rcases Command.reports_spec command tree with ⟨files, hreads, -⟩ | ⟨cause, hcause, -⟩
    · exact ⟨files, hreads⟩
    · exact absurd ⟨cause, hcause⟩ hnone

/-- Two files at the top, of which the second has an illegal token. -/
def strayTree : FileTree :=
  .directory [("a.ori", .file "x".toByteArray), ("b.ori", .file "?".toByteArray)]

theorem strayTree_find :
    strayTree.find true "a.ori" = .ok (.file "x".toByteArray) ∧
      strayTree.find true "b.ori" = .ok (.file "?".toByteArray) ∧
      strayTree.find true "c.ori" = .error .notFound := by
  refine ⟨?_, ?_, ?_⟩ <;>
    simp [FileTree.find, FileTree.locate, FileTree.lookup, FileTree.entries, List.lookup_cons,
      Path.parts, Path.isAbsolute, Text.pieces, strayTree]

/-- The command that lists the tokens of the files at these paths. -/
def lexCommand (paths : List String) : Command where
  action := .lex
  inputs := ⟨paths, []⟩

theorem lexCommand_resolves {paths : List String} (hpaths : paths ≠ []) (tree : FileTree) :
    (lexCommand paths).inputs.Resolves tree paths :=
  ⟨.inl hpaths, [], .nil, (List.append_nil paths).symm⟩

/-- The first file alone is clean, the second one has a diagnostic, and a third one is missing. -/
theorem run_outcome_strayTree :
    let clean := lexCommand ["a.ori"]
    let both := lexCommand ["a.ori", "b.ori"]
    let missing := lexCommand ["a.ori", "c.ori"]
    let terminal : Terminal := ⟨false, none⟩
    (clean.Clean strayTree ∧ (clean.run terminal strayTree.storage).code = 0) ∧
    ((¬ ∃ cause, both.Fails strayTree cause) ∧
      both.run terminal strayTree.storage =
        ⟨1, "== a.ori ==\n1:1 Ident \"x\"\n1:2 EOF \"\"\n" ++
            "== b.ori ==\n1:1 Illegal \"?\"\n1:2 EOF \"\"\n",
          "error[E0002]: b.ori:1:1 invalid character (got Illegal \"?\")\n" ++
            "error: 1 syntax error reported\n"⟩) ∧
    (missing.Fails strayTree (.unreadable "c.ori" .notFound) ∧
      ∃ cause, missing.Fails strayTree cause ∧
        missing.run terminal strayTree.storage = ⟨1, "", "error: " ++ cause.message ++ "\n"⟩) := by
  intro clean both missing terminal
  obtain ⟨hfirst, hsecond, hthird⟩ := strayTree_find
  have hx : strayTree.Holds "a.ori" "x" := ⟨_, hfirst, by decide⟩
  have hstray : strayTree.Holds "b.ori" "?" := ⟨_, hsecond, by decide⟩
  have hclean : clean.Clean strayTree := by
    refine ⟨_, lexCommand_resolves (by simp) strayTree, ?_⟩
    rw [List.forall_mem_singleton]
    exact ⟨"x", hx, by decide +kernel⟩
  have hreads : both.Reads strayTree [("a.ori", "x"), ("b.ori", "?")] := by
    refine ⟨lexCommand_resolves (by simp) strayTree, ?_⟩
    simp [hx, hstray]
  have hboth : ¬ ∃ cause, both.Fails strayTree cause :=
    fun ⟨cause, hcause⟩ => hreads.not_fails cause hcause
  have hmissing : missing.Fails strayTree (.unreadable "c.ori" .notFound) :=
    .unreadable (lexCommand_resolves (by simp) strayTree) (by simp) (.noWay hthird)
  refine ⟨⟨hclean, ?_⟩, ⟨hboth, ?_⟩, hmissing, ?_⟩
  · exact (run_outcome clean terminal strayTree).1.2 hclean
  · rw [(run_outcome both terminal strayTree).2.2.2 _ hreads]
    decide +kernel
  · exact (run_outcome missing terminal strayTree).2.1 ⟨_, hmissing⟩

end OriSyntax
