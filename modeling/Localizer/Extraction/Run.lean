import Localizer.Extraction.File
import Localizer.Project.Generator
import Localizer.Project.Manifest
import Localizer.Resource.Arb
import Localizer.Settings.Basic
import Localizer.Workspace.Sources

/-!
# A run over a project

A run has three stages. `prepare` checks the project and lists its sources, and writes nothing.
`processSources` puts every source through one session. `publish` writes the resource file and the
generator's configuration, and starts the generator if sources were to be changed. Each stage says
what it reported, also if it fails, and the files stay as the failing step left them.
-/

namespace Localizer.Extraction

open Text Dart Message Resource Edit Log Workspace Project

/-- Why a run stopped. -/
inductive RunError where
  /-- There is no folder to look for sources in. -/
  | inputNotFound (path : Message)
  /-- A setting that has to be a text is none. -/
  | notText
  | manifest (e : ManifestError)
  | discovery (e : DiscoveryError)
  | file (e : FileError)
  /-- The root cannot be looked up, or a file of the results could not be written. -/
  | access (e : AccessError)
  | generator (e : CallError)
  deriving Repr, DecidableEq

namespace RunError

/-- What is said of a folder that is not there. -/
def inputMessage (path : Message) : Message := "Input directory does not exist: ".toList ++ path

/-- What is said of a folder that is a file. -/
def folderMessage (path : Message) : Message := "Input path is not a directory: ".toList ++ path

/-- What went wrong, in words. -/
def message : RunError → Message
  | inputNotFound path => inputMessage path
  | notText => "a setting is not a text".toList
  | manifest e => e.message
  | discovery (.inputNotFound path) => inputMessage path
  | discovery (.inputNotFolder path) => folderMessage path
  | discovery (.access e) => e.message
  | file (.source (.escape _)) => "an escape names no code point".toList
  | file (.source (.outOfRange _)) => "a position lies outside of its file".toList
  | file (.access e) => e.message
  | access e => e.message
  | generator .noTimeLimit => "the generator has no time limit".toList
  | generator .noCommand => "the generator has no command".toList
  | generator .zeroCharacter => "the generator's command holds the character zero".toList
  | generator .notDecodable => "the generator's output is not valid UTF-8".toList
  | generator .timeTooLong => "the generator's time limit is too long".toList
  | generator .timeNotNumber => "the generator's time limit is not a number".toList
  | generator .noAnswer => "nothing is known of what became of the generator".toList

/-- Whether the run could not start because the project lacks what it needs. -/
def isFatal : RunError → Bool
  | inputNotFound _ => true
  | discovery (.inputNotFound _) => true
  | manifest e => e.isFatal
  | _ => false

end RunError

/-! ## Preparing -/

/-- What a run is about to do. -/
structure Plan where
  /-- The lines that declare the packages that the manifest lacks. -/
  missing : List Text
  /-- How to replace literals, if they are to be replaced. -/
  target : Option Localizations
  sources : List Source
  deriving Repr, DecidableEq

/-- The report on packages that are missing. -/
def missingReport (missing : List Text) : List Record :=
  if missing.isEmpty then []
  else
    [report .warning "Missing required dependencies in pubspec.yaml:".toList,
     report .warning "Add these to your dependencies section:".toList] ++
    missing.map (fun line => report .warning (ofText ("  ".toList ++ line))) ++
    [report .warning "Then run: flutter pub get".toList]

/-- The manifest of the project, if it is to be checked, and what is missing in it. -/
def checkManifest (s : Settings) (t : Tree) :
    Except ManifestError (Option Manifest × List Text) := do
  if s.checkDependencies then
    let m ← Manifest.load t s.root
    return (some m, m.missing)
  else return (none, [])

/-- The import for an address, or a report that there is none. -/
def importOf (uri : Option Message) : List Record × Option Message :=
  match uri with
  | some uri => ([], some (importStatement uri))
  | none =>
    ([report .warning (ofText ("Could not resolve the localizations import; ".toList ++
        "set import_uri to add it automatically".toList))], none)

/-- The import from a package of that name, whose address depends on the folder of the results. -/
def packageImport (s : Settings) (name : Option Message) :
    List Record × Except RunError (Option Message) :=
  match s.outputDir with
  | .text dir => (importOf (importUri? name dir defaultOutputFile)).map id .ok
  | .empty =>
    if name.all List.isEmpty then (importOf none).map id .ok else ([], .error .notText)

/-- The import that changed sources get: the given one, or that of the manifest's package. A
manifest that was not checked is loaded for it, and a missing or malformed one is no failure. -/
def resolveImport (s : Settings) (t : Tree) (checked : Option Manifest) :
    List Record × Except RunError (Option Message) :=
  match s.importUri, checked with
  | some uri, _ => ([], .ok (some (importStatement uri)))
  | none, some m => packageImport s m.name
  | none, none =>
    match Manifest.load t s.root with
    | .ok m => packageImport s m.name
    | .error e =>
      if e.isFatal then
        let (records, line) := packageImport s none
        (report .debug ("Cannot derive the import from pubspec.yaml: ".toList ++ e.message) ::
          records, line)
      else ([], .error (.manifest e))

/-- How literals are replaced, if they are. -/
def resolveTarget (s : Settings) (t : Tree) (checked : Option Manifest) :
    List Record × Except RunError (Option Localizations) :=
  if s.replace then
    let (records, line) := resolveImport s t checked
    (records, line.map fun line => some ⟨s.className.shown, line⟩)
  else ([], .ok none)

/-- The folder of the resource file as the generator gets it. -/
def resourceFolder (outputDir : Message) : Message := dropEndWhile (· == Path.slash) outputDir

/-- The ignore rules of a run: those of the settings, and the generated code. -/
def excludes (s : Settings) (outputDir : Message) : List Message :=
  s.excludePaths ++ [resourceFolder outputDir ++ "/generated/".toList]

/-- List the sources of the folder at `input`. -/
def listSources (s : Settings) (input : Path) (t : Tree) :
    List Record × Except RunError (List Source) :=
  match s.outputDir with
  | .empty => ([], .error .notText)
  | .text dir =>
    let start := report .info ("Scanning for Dart files in ".toList ++ input.toMessage)
    match t.discover s.root (some input) (excludes s dir) with
    | .error e => ([start], .error (.discovery e))
    | .ok sources =>
      ([start, report .debug (ofText
        ("Discovered ".toList ++ ofNat sources.length ++ " Dart files".toList))], .ok sources)

/-- Check a project whose sources are in the folder at `input`, and list them. -/
def prepareFrom (s : Settings) (input : Path) (t : Tree) : List Record × Except RunError Plan :=
  let start := report .debug ("Effective configuration: ".toList ++ s.describe)
  match checkManifest s t with
  | .error e => ([start], .error (.manifest e))
  | .ok (manifest, missing) =>
    let (imports, target) := resolveTarget s t manifest
    let records := start :: missingReport missing ++ imports
    match target with
    | .error e => (records, .error e)
    | .ok target =>
      let (found, sources) := listSources s input t
      (records ++ found, sources.map fun sources => { missing, target, sources })

/-- Check a project and list its sources. -/
def prepare (s : Settings) (t : Tree) : List Record × Except RunError Plan :=
  match s.inputPath with
  | none => ([], .error .notText)
  | some input =>
    match t.isFolder input with
    | .error e => ([], .error (.access e))
    | .ok false => ([], .error (.inputNotFound input.toMessage))
    | .ok true => prepareFrom s input t

/-! ## Processing -/

/-- Put sources through the ledger's session one after the other, until one fails. -/
def processSources (o : FileOptions) (root : Path) (g : Ledger) :
    List Source → Ledger × Except FileError Unit
  | [] => (g, .ok ())
  | source :: rest =>
    match processFile o g (root.child source.path) source.path with
    | (g, .error e) => (g, .error e)
    | (g, .ok _) => processSources o root g rest

/-! ## Publishing -/

/-- The results that a run has written. -/
structure Published where
  /-- The resource file. -/
  arbPath : Option Path := none
  /-- The generator's configuration. -/
  configPath : Option Path := none
  /-- What became of the generator, if it was started. -/
  generator : Option GeneratorOutcome := none
  deriving Repr, DecidableEq

/-- The report on a file that was written. -/
def generated (p : Path) : Record := report .info ("Generated: ".toList ++ p.toMessage)

/-- Write a message to a file, and make the folders on the way to it. -/
def publishFile (g : Ledger) (p : Path) (m : Message) : Ledger × Except AccessError Unit :=
  match g.tree.makeFolders p.parent with
  | (tree, .error e) => ({ g with tree }, .error e)
  | (tree, .ok ()) =>
    match tree.writeMessage p m with
    | (tree, .error e) => ({ g with tree }, .error e)
    | (tree, .ok ()) => ({ g with tree }.log [generated p], .ok ())

/-- A setting as the generator's configuration has it. -/
def scalarOf : Setting → Yaml.Scalar
  | .text m => .text m
  | .empty => .emptyList

/-- A setting as the resource file has it. -/
def memberOf : Setting → Arb.Member
  | .text m => .value m
  | .empty => .emptyList

/-- What the generator is told. -/
def generatorConfig (s : Settings) : GeneratorConfig where
  arbDir := resourceFolder s.outputDir.shown
  templateArbFile := s.templateArb.shown
  outputClass := scalarOf s.className

/-- The file with what the generator is told. -/
def generatorConfigPath (s : Settings) : Path := s.root.child generatorConfigFile

/-- How the generator is started. -/
def generatorCall (s : Settings) : Call where
  args := generatorCommand
  folder := s.root
  timeout := some s.generatorTimeout

/-- Start the generator if sources were to be changed and the settings want it. -/
def generate (launch : Launcher) (s : Settings) (g : Ledger) :
    Ledger × Except CallError (Option GeneratorOutcome) :=
  if s.replace then
    let g := g.log [report .info (ofText ("Updated ".toList ++ ofNat g.modified.length ++
      " files with localization calls".toList))]
    if s.runGenerator then
      let (records, outcome) := runGenerator launch (generatorCall s)
      (g.log records, outcome.map some)
    else (g, .ok none)
  else (g, .ok none)

/-- Write the results, the resource file at `arb`, and start the generator. -/
def writeResults (launch : Launcher) (s : Settings) (arb : Path) (g : Ledger) :
    Ledger × Except RunError Published :=
  match publishFile g arb (Arb.render (Arb.document g.session.table (memberOf s.locale))) with
  | (g, .error e) => (g, .error (.access e))
  | (g, .ok ()) =>
    match publishFile g (generatorConfigPath s) (Message.ofText (generatorConfig s).render) with
    | (g, .error e) => (g, .error (.access e))
    | (g, .ok ()) =>
      let (g, outcome) := generate launch s g
      (g, (outcome.mapError .generator).map fun generator =>
        ⟨some arb, some (generatorConfigPath s), generator⟩)

/-- Write the results, unless there are none or the run is dry. -/
def publish (launch : Launcher) (s : Settings) (g : Ledger) :
    Ledger × Except RunError Published :=
  let count := g.session.table.size
  if count = 0 then (g.log [report .info "No hardcoded strings found.".toList], .ok {})
  else
    let g := g.log [report .info (ofText
      ("Found ".toList ++ ofNat count ++ " unique localizable strings".toList))]
    match s.arbPath with
    | none => (g, .error .notText)
    | some arb =>
      if s.dryRun then
        (g.log [report .info ("Dry run: skipping ".toList ++ arb.toMessage ++ " and ".toList ++
          generatorConfigFile)], .ok {})
      else writeResults launch s arb g

/-! ## The run -/

/-- What came of a run. -/
structure Result where
  /-- How many files were read. -/
  scanned : Nat
  /-- The files whose literals were replaced, in the order of their names. -/
  modified : List Text
  /-- The files that could not be read or written, in the order in which that was found. -/
  failed : List Text
  /-- How many texts were taken out. -/
  resources : Nat
  /-- The lines that declare the packages that the manifest lacks. -/
  missing : List Text
  /-- The diffs of a dry run. -/
  diffs : Dictionary Text Message
  dryRun : Bool
  published : Published
  deriving Repr, DecidableEq

/-- The result of a run with this ledger. -/
def Ledger.result (g : Ledger) (s : Settings) (missing : List Text) (published : Published) :
    Result where
  scanned := g.scanned
  modified := sort g.modified
  failed := g.failed
  resources := g.session.table.size
  missing := missing
  diffs := g.diffs
  dryRun := s.dryRun
  published := published

/-- How the settings want files to be treated. -/
def fileOptions (s : Settings) (target : Option Localizations) : FileOptions where
  filter := .ofExtra (s.ignorePatterns.filterMap Message.toText?)
  target := target
  dryRun := s.dryRun

/-- Run over the project of the settings, whose root has no `..`. -/
def runResolved (launch : Launcher) (s : Settings) (g : Ledger) :
    Ledger × Except RunError Result :=
  let (records, plan) := prepare s g.tree
  let g := g.log records
  match plan with
  | .error e => (g, .error e)
  | .ok plan =>
    match processSources (fileOptions s plan.target) s.root g plan.sources with
    | (g, .error e) => (g, .error (.file e))
    | (g, .ok ()) =>
      match publish launch s g with
      | (g, .error e) => (g, .error e)
      | (g, .ok published) => (g, .ok (g.result s plan.missing published))

/-- Run over the project of the settings, with the reports going to a log file if there is one. -/
def run (launch : Launcher) (s : Settings) (t : Tree) (logFile : Option Log.File) :
    Ledger × Except RunError Result :=
  let g : Ledger := { tree := t, logFile }
  match resolved s.root with
  | .error e => (g, .error (.access e))
  | .ok root => runResolved launch { s with root } g

end Localizer.Extraction
