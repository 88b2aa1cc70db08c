import FieldSelection.CommandLine.Run
import FieldSelection.Proofs.Compiler.Report

/-!
The commands agree.

All commands load the same things in the same order: the settings, the shape, the schema and its
model. What fails first is what each of them reports, and nothing else is written then. Otherwise
they tell the same about the selection, each in its own place: compiling and projecting write the
warnings beside the document, and checking prints everything that was noticed and fails if there
is a warning. A line is what is printed for one diagnostic, whatever the names in it hold.

* `FailsWith`, `Loads`: what fails first while a command loads, and what it has loaded when
  nothing failed; `failsWith_or_loads` says that it is one of the two.
* `FailsWith.run_eq`: if loading fails, a command writes the error and nothing else.
* `TellsAlike`, `Projects`: what compiling and checking have in common, and when projecting
  succeeds.
* `run_agree`: the commands on the same files with the same selection.
-/

namespace FieldSelection

/-- A diagnostic as it is printed. -/
def Diagnostic.display (diagnostic : Diagnostic) : String :=
  diagnostic.severity.word ++ ": " ++ diagnostic.message ++ " (at " ++ diagnostic.span.text ++ ")"

namespace CommandLine

/-! ### Loading -/

/-- The shape in a file. -/
def ShapeIn (surroundings : Surroundings) (path : String) (shape : Node) : Prop :=
  ∃ text, (surroundings.find path).read = .ok text ∧ Node.parse text = .ok shape

/-- The view of a model of the schema in a file, where they are given. -/
inductive ViewIn (surroundings : Surroundings) :
    Option (String × String) → Option ModelView → Prop
  | none : ViewIn surroundings none none
  | some {path model : String} {registry : Registry} {view : ModelView}
      (hregistry : Registry.ofFile surroundings.find path = .ok registry)
      (hview : registry.require model = .ok view) :
      ViewIn surroundings (some (path, model)) (some view)

/-- The data in a file. -/
def DataIn (surroundings : Surroundings) (path : String) (data : Json) : Prop :=
  ∃ text, (surroundings.find path).read = .ok text ∧ Json.parse text = some data

/-- **What fails first** while a command loads: the settings, the file of the shape, the shape in
it, the schema, or its model. Each of them is loaded after the ones before it. -/
inductive FailsWith (surroundings : Surroundings) (arguments : Arguments) : CommandError → Prop
  | settings {error : CommandError}
      (h : surroundings.settings arguments.config = .error error) :
      FailsWith surroundings arguments error
  | file {settings : Settings} {reason : String}
      (hsettings : surroundings.settings arguments.config = .ok settings)
      (h : (surroundings.find arguments.shape).read = .error reason) :
      FailsWith surroundings arguments (.unreadable arguments.shape reason)
  | shape {settings : Settings} {text : String} {error : ShapeError}
      (hsettings : surroundings.settings arguments.config = .ok settings)
      (htext : (surroundings.find arguments.shape).read = .ok text)
      (h : Node.parse text = .error error) :
      FailsWith surroundings arguments (.shape error)
  | schema {settings : Settings} {shape : Node} {path model : String} {error : SchemaError}
      (hsettings : surroundings.settings arguments.config = .ok settings)
      (hshape : ShapeIn surroundings arguments.shape shape)
      (hgiven : arguments.schema = some (path, model))
      (h : Registry.ofFile surroundings.find path = .error error) :
      FailsWith surroundings arguments (.schema error)
  | model {settings : Settings} {shape : Node} {path model : String} {registry : Registry}
      {error : SchemaError}
      (hsettings : surroundings.settings arguments.config = .ok settings)
      (hshape : ShapeIn surroundings arguments.shape shape)
      (hgiven : arguments.schema = some (path, model))
      (hregistry : Registry.ofFile surroundings.find path = .ok registry)
      (h : registry.require model = .error error) :
      FailsWith surroundings arguments (.schema error)

/-- **What a command has loaded** when nothing failed. -/
structure Loads (surroundings : Surroundings) (arguments : Arguments) (settings : Settings)
    (shape : Node) (view : Option ModelView) : Prop where
  settings : surroundings.settings arguments.config = .ok settings
  shape : ShapeIn surroundings arguments.shape shape
  view : ViewIn surroundings arguments.schema view

/-- What a command works with when it has loaded its settings, a shape and a view of a model. -/
def Arguments.prepared (arguments : Arguments) (settings : Settings) (shape : Node)
    (view : Option ModelView) : Prepared where
  shape := shape
  compiler :=
    { shape := shape.shape?, schema := view, options := arguments.compileOptions settings }
  query := arguments.query

section Loading

variable {surroundings : Surroundings} {arguments : Arguments} {settings : Settings}
  {shape : Node} {view : Option ModelView} {error : CommandError}

/-- Loading fails, or everything is loaded. -/
lemma failsWith_or_loads (surroundings : Surroundings) (arguments : Arguments) :
    (∃ error, FailsWith surroundings arguments error) ∨
      ∃ settings shape view, Loads surroundings arguments settings shape view := by
  cases hsettings : surroundings.settings arguments.config with
  | error error => exact .inl ⟨_, .settings hsettings⟩
  | ok settings =>
  cases htext : (surroundings.find arguments.shape).read with
  | error reason => exact .inl ⟨_, .file hsettings htext⟩
  | ok text =>
  cases hparse : Node.parse text with
  | error error => exact .inl ⟨_, .shape hsettings htext hparse⟩
  | ok shape =>
  have hshape : ShapeIn surroundings arguments.shape shape := ⟨text, htext, hparse⟩
  cases hgiven : arguments.schema with
  | none => exact .inr ⟨settings, shape, none, hsettings, hshape, hgiven ▸ .none⟩
  | some given =>
  obtain ⟨path, model⟩ := given
  cases hregistry : Registry.ofFile surroundings.find path with
  | error error => exact .inl ⟨_, .schema hsettings hshape hgiven hregistry⟩
  | ok registry =>
  cases hview : registry.require model with
  | error error => exact .inl ⟨_, .model hsettings hshape hgiven hregistry hview⟩
  | ok view =>
      exact .inr ⟨settings, shape, some view, hsettings, hshape, hgiven ▸ .some hregistry hview⟩

lemma readFile_of_ok {path text : String} (h : (surroundings.find path).read = .ok text) :
    surroundings.readFile path = .ok text := by
  rw [Surroundings.readFile, h]
  rfl

lemma readFile_of_error {path reason : String}
    (h : (surroundings.find path).read = .error reason) :
    surroundings.readFile path = .error (.unreadable path reason) := by
  rw [Surroundings.readFile, h]
  rfl

/-- What fails first is why the command cannot do its work. -/
lemma FailsWith.perform_eq (h : FailsWith surroundings arguments error) :
    perform surroundings arguments = .error error := by
  cases h with
  | settings h => simp only [perform, h, bind, Except.bind]
  | file hsettings h =>
      simp only [perform, prepare, hsettings, readFile_of_error h, bind, Except.bind]
  | shape hsettings htext h =>
      simp only [perform, prepare, hsettings, readFile_of_ok htext, h, Except.mapError, bind,
        Except.bind]
  | schema hsettings hshape hgiven h =>
      obtain ⟨text, htext, hparse⟩ := hshape
      simp only [perform, prepare, hsettings, readFile_of_ok htext, hparse, hgiven, h,
        Except.mapError, bind, Except.bind]
  | model hsettings hshape hgiven hregistry h =>
      obtain ⟨text, htext, hparse⟩ := hshape
      simp only [perform, prepare, hsettings, readFile_of_ok htext, hparse, hgiven, hregistry, h,
        Except.mapError, bind, Except.bind]

/-- What a command has loaded is what it works with. -/
lemma Loads.prepare_eq (h : Loads surroundings arguments settings shape view) :
    prepare surroundings arguments settings = .ok (arguments.prepared settings shape view) := by
  obtain ⟨text, htext, hparse⟩ := h.shape
  have hview := h.view
  cases hgiven : arguments.schema with
  | none =>
      rw [hgiven] at hview
      cases hview
      simp only [prepare, readFile_of_ok htext, hparse, hgiven, Except.mapError, bind, Except.bind,
        Arguments.prepared]
  | some given =>
      rw [hgiven] at hview
      cases hview with
      | some hregistry hview =>
          simp only [prepare, readFile_of_ok htext, hparse, hgiven, hregistry, hview,
            Except.mapError, bind, Except.bind, Arguments.prepared]

/-- A command that has loaded everything goes on in its own way. -/
lemma Loads.perform_eq (h : Loads surroundings arguments settings shape view) :
    perform surroundings arguments =
      match arguments.verb with
      | .compile => .ok (runCompile (arguments.prepared settings shape view))
      | .check => .ok (runCheck (arguments.prepared settings shape view))
      | .project =>
        (readData surroundings arguments.data).map
          (runProject (arguments.prepared settings shape view) (arguments.mode settings)) := by
  rw [perform, h.settings]
  show (prepare surroundings arguments settings >>= _) = _
  rw [h.prepare_eq]
  cases arguments.verb <;> rfl

/-- Loading depends neither on the command nor on what only projecting reads. -/
lemma FailsWith.for (h : FailsWith surroundings arguments error) (verb : Verb) (data : String)
    (flatten : Bool) : FailsWith surroundings { arguments with verb, data, flatten } error := by
  cases h with
  | settings h => exact .settings h
  | file hsettings h => exact .file hsettings h
  | shape hsettings htext h => exact .shape hsettings htext h
  | schema hsettings hshape hgiven h => exact .schema hsettings hshape hgiven h
  | model hsettings hshape hgiven hregistry h =>
      exact .model hsettings hshape hgiven hregistry h

lemma Loads.for (h : Loads surroundings arguments settings shape view) (verb : Verb)
    (data : String) (flatten : Bool) :
    Loads surroundings { arguments with verb, data, flatten } settings shape view :=
  ⟨h.settings, h.shape, h.view⟩

/-- What was loaded did not fail. -/
lemma Loads.not_failsWith (h : Loads surroundings arguments settings shape view) :
    ¬FailsWith surroundings arguments error := by
  intro hfails
  have hloaded := (h.for .compile "" false).perform_eq
  rw [(hfails.for .compile "" false).perform_eq] at hloaded
  cases hloaded

/-- **If loading fails, a command writes the error and nothing else**, whichever command it is. -/
lemma FailsWith.run_eq (h : FailsWith surroundings arguments error) (verb : Verb)
    (data : String) (flatten : Bool) :
    run surroundings { arguments with verb, data, flatten } = ⟨1, "", lines [error.message]⟩ := by
  rw [run, (h.for verb data flatten).perform_eq]

end Loading

/-! ### Compiling and checking -/

/-- The diagnostics of what a command works with. -/
def Prepared.diagnostics (prepared : Prepared) : List Diagnostic :=
  prepared.compiler.diagnostics prepared.query

/-- The lines of some diagnostics. -/
def displayAll (diagnostics : List Diagnostic) : String :=
  lines (diagnostics.map Diagnostic.display)

/-- **Compiling and checking tell the same.** Compiling prints the descriptor and writes the
warnings beside it. Checking prints all diagnostics, or that there are none, and fails if there
is a warning among them. -/
structure TellsAlike (prepared : Prepared) (compiled checked : Outcome) : Prop where
  compiled_exitCode : compiled.exitCode = 0
  compiled_output :
    compiled.output = lines [(prepared.compiler.compile prepared.query).toJson.pretty]
  compiled_errorOutput :
    compiled.errorOutput = displayAll (prepared.diagnostics.filter (·.severity = .warning))
  checked_output : prepared.diagnostics ≠ [] → checked.output = displayAll prepared.diagnostics
  checked_output_eq_iff :
    checked.output = lines ["OK: selection is clean"] ↔ prepared.diagnostics = []
  checked_exitCode_eq_iff :
    checked.exitCode = 1 ↔ ∃ diagnostic ∈ prepared.diagnostics, diagnostic.severity = .warning
  checked_exitCode_le : checked.exitCode ≤ 1

section Reporting

variable {prepared : Prepared}

/-- The lines of the warnings are those of the diagnostics that are warnings. -/
lemma warningLines_notes (prepared : Prepared) :
    warningLines prepared.notes
      = (prepared.diagnostics.filter (·.severity = .warning)).map Diagnostic.display := by
  rw [Prepared.diagnostics, Compiler.diagnostics_eq, List.filter_map, List.map_map]
  rfl

/-- What compiling and projecting write beside their documents. -/
lemma lines_warningLines (prepared : Prepared) :
    lines (warningLines prepared.notes)
      = displayAll (prepared.diagnostics.filter (·.severity = .warning)) := by
  rw [displayAll, ← warningLines_notes]

/-- A check without diagnostics says so. -/
lemma runCheck_of_eq_nil (h : prepared.diagnostics = []) :
    runCheck prepared = ⟨0, lines ["OK: selection is clean"], ""⟩ := by
  have hnotes : prepared.notes = [] := by
    rwa [Prepared.diagnostics, Compiler.diagnostics_eq, List.map_eq_nil_iff] at h
  rw [runCheck, hnotes]
  rfl

/-- A check with diagnostics prints them, and fails if there is a warning among them. -/
lemma runCheck_of_ne_nil (h : prepared.diagnostics ≠ []) :
    runCheck prepared =
      ⟨if ∃ diagnostic ∈ prepared.diagnostics, diagnostic.severity = .warning then 1 else 0,
        displayAll prepared.diagnostics, ""⟩ := by
  have hnotes : prepared.notes.isEmpty = false := by
    rw [Prepared.diagnostics, Compiler.diagnostics_eq, Ne, List.map_eq_nil_iff] at h
    exact List.isEmpty_eq_false_iff.mpr h
  have hwarning : (warningLines prepared.notes).isEmpty = true ↔
      ¬∃ diagnostic ∈ prepared.diagnostics, diagnostic.severity = .warning := by
    simp [warningLines_notes]
  have hlines : prepared.notes.map Note.display
      = prepared.diagnostics.map Diagnostic.display := by
    rw [Prepared.diagnostics, Compiler.diagnostics_eq, List.map_map]
    rfl
  rw [runCheck, hnotes, if_neg Bool.false_ne_true, if_congr hwarning rfl rfl, ite_not, hlines,
    displayAll]

/-- A diagnostic starts with the word for its severity, so it is not mistaken for the line that
says that there are none. -/
lemma displayAll_cons_ne (diagnostic : Diagnostic) (diagnostics : List Diagnostic) :
    displayAll (diagnostic :: diagnostics) ≠ lines ["OK: selection is clean"] := by
  intro h
  have hhead := congrArg (fun text => text.toList.head?) h
  cases hseverity : diagnostic.severity <;>
    simp [displayAll, lines, Diagnostic.display, hseverity, Severity.word] at hhead

lemma tellsAlike (prepared : Prepared) :
    TellsAlike prepared (runCompile prepared) (runCheck prepared) where
  compiled_exitCode := rfl
  compiled_output := rfl
  compiled_errorOutput := by rw [runCompile, lines_warningLines]
  checked_output h := by rw [runCheck_of_ne_nil h]
  checked_output_eq_iff := by
    refine ⟨fun h => ?_, fun h => by rw [runCheck_of_eq_nil h]⟩
    by_contra hne
    obtain ⟨diagnostic, diagnostics, hcons⟩ := List.exists_cons_of_ne_nil hne
    rw [runCheck_of_ne_nil hne, hcons] at h
    exact displayAll_cons_ne diagnostic diagnostics h
  checked_exitCode_eq_iff := by
    by_cases h : prepared.diagnostics = []
    · rw [runCheck_of_eq_nil h, h]
      simp
    · rw [runCheck_of_ne_nil h]
      simp
  checked_exitCode_le := by
    by_cases h : prepared.diagnostics = []
    · rw [runCheck_of_eq_nil h]
      exact Nat.zero_le 1
    · rw [runCheck_of_ne_nil h]
      dsimp only
      split <;> decide

end Reporting

/-! ### Projecting -/

/-- **Projecting succeeds with data.** It prints what is projected from the data in its file, or
`null` if that is nothing, with the warnings beside it. Without data it fails and prints nothing. -/
structure Projects (surroundings : Surroundings) (path : String) (prepared : Prepared)
    (mode : ProjectionMode) (projected : Outcome) : Prop where
  exitCode_eq_zero_iff : projected.exitCode = 0 ↔ ∃ data, DataIn surroundings path data
  output : ∀ data, DataIn surroundings path data →
    projected.output = lines [((project data prepared.shape
      (prepared.compiler.compile prepared.query) mode).getD .null).pretty]
  errorOutput : ∀ data, DataIn surroundings path data →
    projected.errorOutput = displayAll (prepared.diagnostics.filter (·.severity = .warning))
  failed : (¬∃ data, DataIn surroundings path data) →
    projected.exitCode = 1 ∧ projected.output = ""

section Projecting

variable {surroundings : Surroundings} {arguments : Arguments} {settings : Settings}
  {shape : Node} {view : Option ModelView} {path : String} {data : Json}

lemma readData_of_dataIn (h : DataIn surroundings path data) :
    readData surroundings path = .ok data := by
  obtain ⟨text, htext, hparse⟩ := h
  simp only [readData, readFile_of_ok htext, hparse, bind, Except.bind]

/-- A file without data is an error. -/
lemma readData_of_not_dataIn (h : ¬∃ data, DataIn surroundings path data) :
    ∃ error, readData surroundings path = .error error := by
  cases htext : (surroundings.find path).read with
  | error reason =>
      exact ⟨.unreadable path reason, by
        simp only [readData, readFile_of_error htext, bind, Except.bind]⟩
  | ok text =>
      cases hparse : Json.parse text with
      | none =>
          exact ⟨.data, by simp only [readData, readFile_of_ok htext, hparse, bind, Except.bind]⟩
      | some data => exact absurd ⟨data, text, htext, hparse⟩ h

lemma Loads.run_project (h : Loads surroundings arguments settings shape view)
    (hdata : DataIn surroundings path data) (flatten : Bool) :
    run surroundings { arguments with verb := .project, data := path, flatten } =
      runProject (arguments.prepared settings shape view)
        (if flatten then .flat else settings.mode) data := by
  rw [run, (h.for .project path flatten).perform_eq]
  simp only [readData_of_dataIn hdata]
  rfl

lemma Loads.run_project_of_not_dataIn (h : Loads surroundings arguments settings shape view)
    (hdata : ¬∃ data, DataIn surroundings path data) (flatten : Bool) :
    ∃ error : CommandError,
      run surroundings { arguments with verb := .project, data := path, flatten }
        = ⟨1, "", lines [error.message]⟩ := by
  obtain ⟨error, herror⟩ := readData_of_not_dataIn hdata
  refine ⟨error, ?_⟩
  rw [run, (h.for .project path flatten).perform_eq]
  simp only [herror]
  rfl

lemma Loads.projects (h : Loads surroundings arguments settings shape view) (path : String)
    (flatten : Bool) :
    Projects surroundings path (arguments.prepared settings shape view)
      (if flatten then .flat else settings.mode)
      (run surroundings { arguments with verb := .project, data := path, flatten }) where
  exitCode_eq_zero_iff := by
    refine ⟨fun hzero => ?_, fun ⟨data, hdata⟩ => by rw [h.run_project hdata]; rfl⟩
    by_contra hdata
    obtain ⟨error, hrun⟩ := h.run_project_of_not_dataIn hdata flatten
    rw [hrun] at hzero
    cases hzero
  output data hdata := by
    rw [h.run_project hdata]
    rfl
  errorOutput data hdata := by
    rw [h.run_project hdata, runProject, lines_warningLines]
  failed hdata := by
    obtain ⟨error, hrun⟩ := h.run_project_of_not_dataIn hdata flatten
    rw [hrun]
    exact ⟨rfl, rfl⟩

end Projecting

/-! ### The commands side by side -/

/-- **The commands agree.** On the same files and with the same selection, compiling, checking and
projecting fail in the same way if loading the settings, the shape, the schema or its model fails:
they write the error that comes first, and nothing else. Otherwise compiling prints the descriptor
and writes the warnings that checking prints among all diagnostics; checking fails exactly if there
is a warning, and says that all is clean exactly if there is no diagnostic; and projecting succeeds
exactly if there is data in its file. -/
theorem run_agree (surroundings : Surroundings) (arguments : Arguments) (path : String)
    (flatten : Bool) :
    (∀ error, FailsWith surroundings arguments error →
      run surroundings { arguments with verb := .compile } = ⟨1, "", lines [error.message]⟩ ∧
      run surroundings { arguments with verb := .check } = ⟨1, "", lines [error.message]⟩ ∧
      run surroundings { arguments with verb := .project, data := path, flatten }
        = ⟨1, "", lines [error.message]⟩) ∧
    ((¬∃ error, FailsWith surroundings arguments error) →
      ∃ settings shape view, Loads surroundings arguments settings shape view ∧
        TellsAlike (arguments.prepared settings shape view)
          (run surroundings { arguments with verb := .compile })
          (run surroundings { arguments with verb := .check }) ∧
        Projects surroundings path (arguments.prepared settings shape view)
          (if flatten then .flat else settings.mode)
          (run surroundings { arguments with verb := .project, data := path, flatten })) := by
  constructor
  · intro error h
    exact ⟨h.run_eq .compile arguments.data arguments.flatten,
      h.run_eq .check arguments.data arguments.flatten, h.run_eq .project path flatten⟩
  · intro hfails
    obtain ⟨settings, shape, view, hloads⟩ :=
      (failsWith_or_loads surroundings arguments).resolve_left hfails
    have hcompiled : run surroundings { arguments with verb := .compile } =
        runCompile (arguments.prepared settings shape view) := by
      rw [run, (hloads.for .compile arguments.data arguments.flatten).perform_eq]
      rfl
    have hchecked : run surroundings { arguments with verb := .check } =
        runCheck (arguments.prepared settings shape view) := by
      rw [run, (hloads.for .check arguments.data arguments.flatten).perform_eq]
      rfl
    refine ⟨settings, shape, view, hloads, ?_, hloads.projects path flatten⟩
    rw [hcompiled, hchecked]
    exact tellsAlike _

/-- A bakery with a shape, a schema of bakeries and data, and without settings of its own. -/
def bakery : Surroundings where
  find := FileTree.find <| .ofList
    [("shape.json", some "\x7b\"name\":true,\"ovens\":[\x7b\"heat\":true\x7d]\x7d"),
      ("models.toml", some "[[models]]\nname = \"bakery\"\n"),
      ("data.json", some "\x7b\"name\":\"Rye\",\"ovens\":[\x7b\"heat\":220\x7d]\x7d")]
  chosenConfig := none
  configPlaces := ["sifter.toml"]

/-- Asks for the heat and the size of the ovens, and does not close the parenthesis. -/
def ovenArguments : Arguments where
  verb := .compile
  shape := "shape.json"
  fields := some "ovens(heat,size"

/-- The same for a model that the schema does not have. -/
def ovenModelArguments : Arguments :=
  { ovenArguments with schema := some ("models.toml", "oven") }

/-- A computation that leaves a value has succeeded with it. -/
lemma eq_ok_of_toOption {ε α : Type} {result : Except ε α} {value : α}
    (h : result.toOption = some value) : result = .ok value := by
  cases result with
  | error _ => cases h
  | ok _ => exact congrArg Except.ok (Option.some.inj h)

/-- A model that the schema lacks is the first error, also for a command whose data is lost.
Without a schema, the open parenthesis is a warning and the size an information, so checking fails
and projecting does not. -/
theorem run_agree_bakery :
    FailsWith bakery ovenModelArguments (.schema (.unknownModel "oven")) ∧
      run bakery { ovenModelArguments with verb := .project, data := "lost.json", flatten := true }
        = ⟨1, "", lines [CommandError.message (.schema (.unknownModel "oven"))]⟩ ∧
      (¬∃ error, FailsWith bakery ovenArguments error) ∧
      (∃ settings shape view, Loads bakery ovenArguments settings shape view ∧
        TellsAlike (ovenArguments.prepared settings shape view)
          (run bakery { ovenArguments with verb := .compile })
          (run bakery { ovenArguments with verb := .check }) ∧
        Projects bakery "data.json" (ovenArguments.prepared settings shape view) .flat
          (run bakery
            { ovenArguments with verb := .project, data := "data.json", flatten := true })) ∧
      (run bakery { ovenArguments with verb := .check }).exitCode = 1 ∧
      (run bakery { ovenArguments with verb := .project, data := "data.json", flatten := true })
        = ⟨0, "\x7b\n  \"ovens.0.heat\": 220\n\x7d\n", "warning: unmatched '(' under <root>; " ++
          "the rest of the selection is read as its body (at 5..6)\n"⟩ := by
  have hsettings : bakery.settings none = .ok {} := rfl
  obtain ⟨shape, hparse⟩ := Option.isSome_iff_exists.mp (by decide +kernel :
    (Node.parse "\x7b\"name\":true,\"ovens\":[\x7b\"heat\":true\x7d]\x7d").toOption.isSome)
  have hshape : ShapeIn bakery "shape.json" shape := ⟨_, rfl, eq_ok_of_toOption hparse⟩
  have hregistry : Registry.ofFile bakery.find "models.toml" = .ok ⟨[⟨"bakery", [], []⟩]⟩ :=
    eq_ok_of_toOption (by decide +kernel)
  have hmodel : FailsWith bakery ovenModelArguments (.schema (.unknownModel "oven")) :=
    .model hsettings hshape rfl hregistry rfl
  have hloads : Loads bakery ovenArguments {} shape none := ⟨hsettings, hshape, .none⟩
  have hfails : ¬∃ error, FailsWith bakery ovenArguments error :=
    fun ⟨_, h⟩ => hloads.not_failsWith h
  obtain ⟨hfailed, -⟩ := run_agree bakery ovenModelArguments "lost.json" true
  obtain ⟨-, hagree⟩ := run_agree bakery ovenArguments "data.json" true
  refine ⟨hmodel, (hfailed _ hmodel).2.2, hfails, hagree hfails, ?_, ?_⟩
  · decide +kernel
  · decide +kernel

end CommandLine

end FieldSelection
