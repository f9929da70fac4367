import NodeScaffold.Command.Delivery
import NodeScaffold.Command.Request
import NodeScaffold.Log.Findings
import NodeScaffold.Node.Dump

/-! # Running a command

A run reads the input, generates the selected documents and delivers them. It stops at the first
failure and tells it on the error output. -/
namespace NodeScaffold
set_option autoImplicit false

variable {m : Type → Type} [Monad m] [Host m]

namespace Request
open Command

def deliver (filter : Filter) (request : Request) (documents : List Document) :
    ExceptT Failure m Unit :=
  match request.check, Path.isStandardOutput request.out with
  | true, true => throw .nothingToCheck
  | true, false => Document.checkAll filter request.out documents
  | false, true => Document.printAll documents
  | false, false => Document.writeAll filter request.out documents

def readCatalog (filter : Filter) (conv : Conventions) (request : Request) :
    ExceptT Failure m Catalog := do
  let source ← attempt (.cannotRead request.input) (Host.readText request.input)
  let findings := Finding.ofSource conv source
  (Event.ofFindings conv findings).forM (log filter)
  let catalog := Catalog.ofFindings conv findings
  log filter (.catalogRead request.input catalog.size)
  if request.dump then Host.report catalog.dump.pretty
  return catalog

def run (filter : Filter) (conv : Conventions) (request : Request) : ExceptT Failure m Unit := do
  let catalog ← readCatalog filter conv request
  (request.artifacts.flatMap (·.events catalog.toList)).forM (log filter)
  match Document.allOf conv catalog request.artifacts with
  | .ok documents => deliver filter request documents
  | .error e => throw (.cannotGenerate e)

/-- The filter that was set, if it can be read, and else one that follows the request. -/
def filter (setting? : Option Text) (request : Request) : Filter :=
  (setting?.bind Filter.read?).getD (.upTo (if request.verbose then .debug else .info))

def execute (setting? : Option Text) (request : Request) : m Nat := do
  match ← (run (request.filter setting?) .standard request).run with
  | .ok () => return 0
  | .error failure =>
    failure.lines.forM Host.report
    return 1

end Request

namespace Command

def versionText : Text := "nodegen 0.1.0\n"

def helpText : Text := Text.concat [
  "Generates syntax node builders, equality, printer, skipped-token touching and first/last token ",
  "lookup from a node header\n\n",
  "Usage: nodegen [OPTIONS] <INPUT> <OUT>\n\n",
  "Arguments:\n",
  "  <INPUT>  Node header to scan\n",
  "  <OUT>    Output directory, or `-` for stdout\n\n",
  "Options:\n",
  "      --only <ARTIFACT>  Only generate these artifacts ",
  "(builders, equality, printer, toucher, token-boundary)\n",
  "      --check            Compare with the files in OUT instead of writing them\n",
  "      --dump-schema      Print the scanned schema to stderr\n",
  "  -v, --verbose          Verbose logging\n",
  "  -h, --help             Print help\n",
  "  -V, --version          Print version\n"]

/-- Follows a command line to its exit code; the log filter may be set from outside. -/
def run (setting? : Option Text) (arguments : List Text) : m Nat := do
  match Invocation.ofArguments arguments with
  | .ok (.run request) => request.execute setting?
  | .ok .version =>
    Host.print versionText
    return 0
  | .ok .help =>
    Host.print helpText
    return 0
  | .error e =>
    Host.report e.message
    return 2

end Command

end NodeScaffold
