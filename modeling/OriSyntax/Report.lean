import OriSyntax.Diagnostic.Terminal
import OriSyntax.Grammar.File
import OriSyntax.Tree.Listing

/-!
Reports: what a run shows for each file, and the two outputs of a run over several
files.
-/

namespace OriSyntax

/-- What one file adds to a run. -/
structure FileReport where
  path : String
  output : String
  diagnostics : List Diagnostic
deriving DecidableEq, Repr

namespace FileReport

/-- A token on a line of its own: place, kind and quoted text. -/
def tokenLine (token : Token) : String :=
  token.position.text ++ " " ++ token.describe ++ "\n"

/-- The token listing of a source, with a diagnostic for each illegal token. -/
def ofTokens (path source : String) : FileReport :=
  let tokens := Source.tokens source
  { path := path
    output := String.join (tokens.map tokenLine)
    diagnostics := (tokens.filter (·.kind = .illegal)).map Diagnostic.illegal }

/-- The tree listing of a source with its diagnostics.  A quiet report has no
listing. -/
def ofTree (path source : String) (quiet : Bool) : FileReport :=
  let parsed := Source.parse source
  { path := path
    output := if quiet then "" else parsed.file.listing
    diagnostics := parsed.diagnostics }

end FileReport

/-- How a run ended. -/
inductive Status where
  /-- No file has a diagnostic. -/
  | clean
  /-- Some file has one. -/
  | errors
deriving DecidableEq, Repr

/-- The outcome of a run and what it wrote. -/
structure RunReport where
  status : Status
  stdout : String
  stderr : String
deriving DecidableEq, Repr

namespace RunReport

/-- What a report adds to the standard output; a header names the file if there is
more than one. -/
def fileOutput (withHeader : Bool) (report : FileReport) : String :=
  (if withHeader then "== " ++ report.path ++ " ==\n" else "") ++ report.output

/-- What a report adds to the error output. -/
def fileErrors (terminal : Terminal) (report : FileReport) : String :=
  { terminal with path := some report.path }.showDiagnostics report.diagnostics

/-- The outputs of all files in order, and a summary of their diagnostics. -/
def ofFiles (terminal : Terminal) (reports : List FileReport) : RunReport :=
  let count := (reports.flatMap (·.diagnostics)).length
  { status := if count = 0 then .clean else .errors
    stdout := String.join (reports.map (fileOutput (reports.length > 1)))
    stderr := String.join (reports.map (fileErrors terminal)) ++
      terminal.showSummary count }

end RunReport

end OriSyntax
