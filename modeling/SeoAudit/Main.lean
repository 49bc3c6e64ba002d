import SeoAudit.Command.Run
import SeoAudit.Command.Usage
import SeoAudit.Moment
import SeoAudit.Yaml.Reader

/-! The command line. The files that an audit may look at are read from disk into a
tree, the command is run on it, and its outcome is printed. Of the files below a pages
directory only the page files are read. Scripts are not run: every page is judged by
its text. -/
namespace SeoAudit
namespace Main

/-- A text as the terminal takes it: a lone half of a surrogate pair shows as U+FFFD. -/
def shown (text : Text) : String := String.ofList (text.charsOr '\uFFFD')

def noEngine : Engine := fun _ _ => .failed "EngineError" "no script engine available"

def octets? (path : String) : IO (Option (List UInt8)) := do
  match ← (IO.FS.readBinFile path).toBaseIO with
  | .ok content => pure (some content.toList)
  | .error _ => pure none

def nodeAt? (path : Path) : IO (Option Tree) := do
  let file := (← IO.currentDir) / shown path.text
  match ← file.metadata.toBaseIO with
  | .error _ => pure none
  | .ok data =>
    if data.type == .dir then pure (some (.directory []))
    else pure ((← octets? (shown path.text)).map Tree.file)

/-- The directory at a path with all pages below it. Links to directories are not followed. -/
partial def pagesBelow (path : Path) : IO Tree := do
  let directory := (← IO.currentDir) / shown path.text
  let mut entries : Array (Text × Tree) := #[]
  if let .ok listed ← directory.readDir.toBaseIO then
    for entry in listed do
      let name := entry.fileName
      let inner := path.join name
      match ← (directory / name).symlinkMetadata.toBaseIO with
      | .error _ => pure ()
      | .ok data =>
        if data.type == .dir then
          unless Discovery.closedDirectories.contains name do
            entries := entries.push (name, ← pagesBelow inner)
        else if Discovery.isPage name then
          if let some content ← octets? (shown inner.text) then
            entries := entries.push (name, .file content)
  pure (.directory entries.toList)

def withPlaces (tree : Tree) (places : List Path) : IO Tree :=
  (places.flatMap Path.stages).foldlM (fun tree place => do
    match ← nodeAt? place with
    | some node => pure (Tree.place node place.segments tree)
    | none => pure tree) tree

def withPages (tree : Tree) (places : List Path) : IO Tree :=
  places.foldlM (fun tree place => do
    match ← nodeAt? place with
    | some (.directory _) =>
      pure (Tree.place (← pagesBelow place.resolve) place.resolve.segments tree)
    | _ => pure tree) tree

def now : IO Moment := do
  let (_, file) ← IO.FS.createTempFile
  let time := (← file.metadata).modified
  IO.FS.removeFile file
  pure (Moment.ofSeconds time.sec (time.nsec.toNat / 1000000))

def surroundings (arguments : Arguments) : IO Surroundings := do
  let directory := Path.ofText (← IO.currentDir).toString
  let own := (← IO.getEnv "HOME").map fun home => Path.ofText home
  let bare : Surroundings :=
    { tree := .directory [], directory, ci := (← IO.getEnv "CI").map Text.ofString,
      engine := noEngine
      yaml := Yaml.Value.read, terminal := .utf8
      home := fun user => if user.isEmpty then own else none, stamp := (← now).text }
  let places := Command.firstPlaces bare arguments
  let first := { bare with tree := ← withPlaces bare.tree places }
  match Command.config? first arguments with
  | none => pure first
  | some config =>
    let pagesPlaces := Layout.pagesPlaces config
    let tree ← withPages bare.tree pagesPlaces
    let further := Layout.filePlaces config ++ [config.root.join Audit.robotsFile]
    pure { bare with tree := ← withPlaces tree (places ++ pagesPlaces ++ further) }

def appendLog (file : Path) (lines : List Text) : IO Unit := do
  let handle ← IO.FS.Handle.mk (shown file.text) .append
  lines.forM fun line => handle.putStr (shown line)

def finish : Command → IO UInt32
  | .usage => do
    IO.eprint (Usage.text Usage.misuse)
    pure 2
  | .help => do
    IO.print (Usage.text Usage.help)
    pure 0
  | .finished outcome => do
    if let some (file, lines) := outcome.log then appendLog file lines
    IO.eprint (shown outcome.errors)
    IO.print (shown outcome.output)
    pure outcome.exit.toUInt32
  | .broken fault => do
    IO.eprintln (shown fault.message)
    pure 1

end Main
end SeoAudit

open SeoAudit in
def main (line : List String) : IO UInt32 := do
  let line := line.map Text.ofString
  match Arguments.read line with
  | none => Main.finish .usage
  | some arguments =>
    if arguments.help then Main.finish .help
    else Main.finish (Command.run (← Main.surroundings arguments) line)
