import FieldSelection.Level.Report

/-!
Compiling queries into descriptors.

Compilation never fails: unknown names are dropped, malformed nesting is read as
generously as possible, and what is worth telling is noted.

* `Compiler.compile`: the descriptor of a query.
* `Compiler.notes`: what was noticed about its selection.
* `Compiler.run`: the compilation step by step, with the report that it writes.
* `Compiler.diagnostics`, `Compiler.log`: the diagnostics and the events of the report.
-/

namespace FieldSelection

/-- What selections are compiled against. -/
structure Compiler where
  shape : Option Shape := none
  schema : Option ModelView := none
  options : CompileOptions := {}
  deriving Repr

/-- The root level with the parameters that a query sets for the whole answer. -/
def Descriptor.withParameters (level : Descriptor) (query : Query) : Descriptor :=
  { level with
    limit := Query.valueOf query.limit
    offset := Query.valueOf query.offset
    col := Query.valueOf query.col
    distinct := Query.valueOf query.distinct
    order := match query.order with
      | some text => parseOrder text.toList
      | none => [] }

namespace Compiler

/-- The place of the root level. -/
def root (compiler : Compiler) : Place :=
  ⟨compiler.shape, compiler.schema, ""⟩

/-- The selection text of a query. -/
def selection (compiler : Compiler) (query : Query) : String :=
  query.fields.getD compiler.options.defaultFields

/-- Whether the selection of a query is `all` and nothing else. -/
def selectsAll (compiler : Compiler) (query : Query) : Bool :=
  Selection.isAll (Text.trim (compiler.selection query).toList)

/-- The body of the root level. -/
def segments (compiler : Compiler) (query : Query) : List Segment :=
  [⟨compiler.selection query, 0⟩]

/-- The request of the root level. -/
def request (compiler : Compiler) (query : Query) : Request :=
  if compiler.selectsAll query then .everything
  else compiler.root.request compiler.options.includeKeys (compiler.segments query)

/-- The descriptor of a query. -/
def compile (compiler : Compiler) (query : Query) : Descriptor :=
  (Place.descriptor compiler.options query compiler.options.maxDepth compiler.root
    (compiler.request query)).withParameters query

/-- What was noticed about the selection of a query. -/
def notes (compiler : Compiler) (query : Query) : List Note :=
  (if compiler.selectsAll query then []
    else compiler.root.scanNotes compiler.options.includeKeys (compiler.segments query)) ++
  Place.notes compiler.options compiler.options.maxDepth compiler.root
    (compiler.request query)

/-- The notes that are warnings. -/
def warnings (compiler : Compiler) (query : Query) : List Note :=
  (compiler.notes query).filter (·.severity = .warning)

/-- Compile a query step by step. A selection of everything takes a shorter way, which
is worth an event of its own. -/
def run (compiler : Compiler) (query : Query) : Reporting Descriptor := do
  let build := Place.build compiler.options query compiler.options.maxDepth compiler.root
  let level ←
    if compiler.selectsAll query then do
      Reporting.trace .debug [] "selection requests every field, walking the shape directly"
      build .everything
    else do
      let request ← compiler.root.read compiler.options.includeKeys (compiler.segments query)
      build request
  return level.withParameters query

/-- The report of a compilation. -/
def report (compiler : Compiler) (query : Query) : Report :=
  (StateT.run (compiler.run query) {}).2

/-- The diagnostics of a compilation. -/
def diagnostics (compiler : Compiler) (query : Query) : List Diagnostic :=
  (compiler.report query).diagnostics

/-- The events of a compilation. -/
def log (compiler : Compiler) (query : Query) : List Event :=
  (compiler.report query).events

end Compiler

/-- The descriptor of a query against a shape, with default options. -/
def compile (query : Query) (shape : Option Shape) : Descriptor :=
  Compiler.compile { shape } query

end FieldSelection
