import SeoAudit.Command.Run
import SeoAudit.Proofs.NamedPaths
import SeoAudit.Proofs.ShortPaths
import SeoAudit.Yaml.Reader

/-! How loading a configuration fails. A file that cannot be opened, a text that is not the
one of a mapping and a value of the wrong kind are all told in the words of the command, or
passed over. What is told in no words of its own is listed by `Config.Usable`: octets that
are no text, numbers with too many digits to be written, and texts that name no path. -/
namespace SeoAudit

open Yaml (Value)

namespace Setting
variable {v : Value}

/-- A value that is written without fail where a text is wanted. -/
def IsWritable (v : Value) : Prop :=
  ∀ n, v = .number (.whole n) → (toString n.natAbs).length ≤ Text.digitLimit

structure NamesPath (v : Value) : Prop where
  writable : IsWritable v
  names (text : Text) : text? v = .ok (some text) → Path.Names text

theorem exists_text? (writable : IsWritable v) : ∃ text, text? v = .ok text := by
  cases v with
  | number n =>
    cases n with
    | whole n =>
      have fits := writable n rfl
      exact ⟨some (toString n), by rw [text?, wholeText, if_pos fits]; rfl⟩
    | fraction x => exact ⟨_, rfl⟩
  | _ => exact ⟨_, rfl⟩

theorem exists_nonempty? (writable : IsWritable v) :
    ∃ text, nonempty? v = .ok text ∧ ∀ s, text = some s → text? v = .ok (some s) := by
  obtain ⟨text, written⟩ := exists_text? writable
  rw [nonempty?, written]
  rcases text with _ | _ | ⟨c, cs⟩
  · exact ⟨none, rfl, nofun⟩
  · exact ⟨none, rfl, nofun⟩
  · exact ⟨some (c :: cs), rfl, fun s same => by rw [same]⟩

theorem exists_path? {root : Path} (rootNamed : ∀ s ∈ root.segments, Path.Names s)
    (names : NamesPath v) : ∃ path, path? root v = .ok path := by
  obtain ⟨text, written, from_⟩ := exists_nonempty? names.writable
  rw [path?, written]
  cases text with
  | none => exact ⟨none, rfl⟩
  | some s =>
    have resolved := Path.resolved_eq (Path.names_join rootNamed (names.names s (from_ s rfl)))
    refine ⟨some (root.join s).resolve, ?_⟩
    show some <$> (root.join s).resolved.mapError _ = _
    rw [resolved]
    rfl

theorem exists_texts
    (writable : ∀ items, v = .sequence items → ∀ item ∈ items, IsWritable item) :
    ∃ list, texts v = .ok list := by
  cases v with
  | sequence items =>
    obtain ⟨written, all⟩ : ∃ written, items.mapM text? = .ok written :=
      exists_mapM_of_forall fun item member => exists_text? (writable items rfl item member)
    exact ⟨written.filterMap id, by rw [texts, all]; rfl⟩
  | _ => exact ⟨_, rfl⟩

end Setting

namespace Config
variable {pairs : List (Value × Value)} {root : Path} {yaml : Yaml.Reader} {tree : Tree}

def pathKeys : List Text := ["pages_dir", "sitemap_file", "framework_config", "seo_util_file"]

structure WritableSettings (pairs : List (Value × Value)) : Prop where
  paths : ∀ key ∈ pathKeys, ∀ v, Value.get? key pairs = some v → Setting.NamesPath v
  ignored (items : List Value) : Value.get? "ignore_paths" pairs = some (.sequence items) →
    ∀ item ∈ items, Setting.IsWritable item
  origin (evaluation v : Value) : Value.get? "sandbox" pairs = some evaluation →
    Value.get? "origin" (Setting.pairs evaluation) = some v → Setting.IsWritable v

theorem writableSettings_nil : WritableSettings [] := ⟨nofun, nofun, nofun⟩

theorem exists_readingM {α : Type} {read : Value → Except ConfigError (Option α)} {key : Text}
    (each : ∀ v, Value.get? key pairs = some v → ∃ a, read v = .ok a) :
    ∃ a, readingM read key pairs = .ok a := by
  unfold readingM
  cases there : Value.get? key pairs with
  | none => exact ⟨none, rfl⟩
  | some v => exact each v there

theorem exists_ofPairs (rootNamed : ∀ s ∈ root.segments, Path.Names s)
    (settings : WritableSettings pairs) : ∃ config, ofPairs root pairs = .ok config := by
  have path (key : Text) (listed : key ∈ pathKeys) :
      ∃ p, readingM (Setting.path? root) key pairs = .ok p :=
    exists_readingM fun v there =>
      Setting.exists_path? rootNamed (settings.paths key listed v there)
  obtain ⟨pagesDir, pages⟩ := path "pages_dir" (by decide)
  obtain ⟨sitemapFile, sitemap⟩ := path "sitemap_file" (by decide)
  obtain ⟨frameworkConfig, framework⟩ := path "framework_config" (by decide)
  obtain ⟨generatorFile, generator⟩ := path "seo_util_file" (by decide)
  obtain ⟨ignorePaths, ignored⟩ : ∃ texts,
      readingM (fun v => some <$> Setting.texts v) "ignore_paths" pairs = .ok texts :=
    exists_readingM fun v there => by
      obtain ⟨list, written⟩ := Setting.exists_texts (v := v) fun items same =>
        settings.ignored items (same ▸ there)
      exact ⟨some list, by rw [written]; rfl⟩
  obtain ⟨origin, site⟩ : ∃ text, readingM Setting.nonempty? "origin"
      (((Value.get? "sandbox" pairs).map Setting.pairs).getD []) = .ok text :=
    exists_readingM fun v there => by
      cases sandbox : Value.get? "sandbox" pairs with
      | none =>
        rw [sandbox] at there
        cases there
      | some evaluation =>
        rw [sandbox] at there
        exact (Setting.exists_nonempty? (settings.origin evaluation v sandbox there)).imp
          fun _ => And.left
  -- All other settings are passed over where they do not fit.
  simp only [ofPairs, pages, sitemap, framework, generator, ignored, site]
  exact ⟨_, rfl⟩

/-- A result that is a configuration or an error in the words of the command. -/
def IsTold (result : Except ConfigError Config) : Prop :=
  (∃ config, result = .ok config) ∨ ∃ e, result = .error e ∧ e.isReported = true

structure Readable (yaml : Yaml.Reader) (text : String) : Prop where
  malformed (e : Yaml.Error) : yaml text.toList = .error e → e = .malformed
  settings (pairs : List (Value × Value)) :
    yaml text.toList = .ok (.mapping pairs) → WritableSettings pairs

theorem isTold_ofValue (rootNamed : ∀ s ∈ root.segments, Path.Names s) (v : Value)
    (settings : ∀ pairs, v = .mapping pairs → WritableSettings pairs) :
    IsTold (ofValue root v) := by
  cases v with
  | null => exact .inl (exists_ofPairs rootNamed writableSettings_nil)
  | mapping pairs => exact .inl (exists_ofPairs rootNamed (settings pairs rfl))
  | _ => exact .inr ⟨.notMapping, rfl, rfl⟩

theorem isTold_ofText (rootNamed : ∀ s ∈ root.segments, Path.Names s) (name : Text)
    {text : String} (readable : Readable yaml text) : IsTold (ofText yaml root name text) := by
  unfold ofText
  split
  · exact .inl (exists_ofPairs rootNamed writableSettings_nil)
  · split
    · exact .inr ⟨_, rfl, rfl⟩
    · rename_i e malformed failed
      exact absurd (readable.malformed e failed) malformed
    · rename_i value read
      exact isTold_ofValue rootNamed value fun pairs same => readable.settings pairs (same ▸ read)

structure ReadableAt (yaml : Yaml.Reader) (tree : Tree) (file : Path) : Prop where
  decodes (content : List UInt8) : tree.lookup file = .ok (.file content) →
    ∃ text, Utf8.readText content = .ok text
  readable (text : String) : tree.readText file = .ok text → Readable yaml text

theorem ReadableAt.ne_undecodable {file : Path} (readable : ReadableAt yaml tree file)
    (e : Utf8.Error) : tree.readText file ≠ .error (.undecodable e) := by
  unfold Tree.readText
  split
  · rename_i failure _
    cases failure <;> nofun
  · nofun
  · rename_i content looked
    obtain ⟨text, decoded⟩ := readable.decodes content looked
    rw [decoded]
    nofun

theorem isTold_ofFile {file : Path} (short : file.IsShort)
    (named : ∀ s ∈ file.segments, Path.Names s) (readable : ReadableAt yaml tree file) :
    IsTold (ofFile yaml tree file) := by
  have parentNamed : ∀ s ∈ file.parent.segments, Path.Names s := fun s member =>
    named s (List.dropLast_subset _ member)
  rw [ofFile, Tree.existsAt_eq short]
  cases tree.hasNode file with
  | false => exact .inl ⟨{ root := file.parent }, rfl⟩
  | true =>
    dsimp only [Except.mapError, bind, Except.bind]
    rw [if_pos rfl]
    split
    · rename_i text read
      exact isTold_ofText parentNamed file.name (readable.readable text read)
    · rename_i e undecodable
      exact absurd undecodable (readable.ne_undecodable e)
    · exact .inr ⟨_, rfl, rfl⟩

theorem loadAs_of_readText {given : Text} {path file : Path} {text : String}
    (found : fileAt tree given path = .ok file) (there : tree.existsAt file = .ok true)
    (read : tree.readText file = .ok text) :
    loadAs yaml tree given path = ofText yaml file.parent file.name text := by
  rw [loadAs, found]
  dsimp only
  rw [ofFile, there]
  dsimp only [Except.mapError, bind, Except.bind]
  rw [if_pos rfl, read]

structure Usable (yaml : Yaml.Reader) (tree : Tree) (place : Place) : Prop where
  given : Path.Names place.given
  givenShort : Name.octetTotal place.given ≤ Path.textLimit
  named : ∀ s ∈ place.path.segments, Path.Names s
  short : ∀ p ∈ places place.path, p.IsShort
  readable (file : Path) :
    fileAt tree place.given place.path = .ok file → ReadableAt yaml tree file

theorem names_join_fileName {path : Path} (named : ∀ s ∈ path.segments, Path.Names s) :
    ∀ s ∈ (path.join fileName).segments, Path.Names s :=
  Path.names_join named (by decide)

theorem Usable.exists_fileAt {place : Place} (usable : Usable yaml tree place) :
    ∃ file, fileAt tree place.given place.path = .ok file ∧ file.IsShort ∧
      ∀ s ∈ file.segments, Path.Names s := by
  have short (p : Path) (listed : p ∈ places place.path) := usable.short p listed
  have tested := Tree.holdsAs_eq (t := tree) usable.givenShort
    (short place.path (by simp [places])).segments Tree.isDirectory
  rw [fileAt, tested]
  -- Both ways the path is resolved, as it is given or with the name of the file behind it.
  cases (Tree.lookupAs place.given tree place.path).toOption.any Tree.isDirectory with
  | true =>
    have named := names_join_fileName usable.named
    exact ⟨_, Path.resolved_eq named, short _ (by simp [places]), Path.names_resolve named⟩
  | false =>
    exact ⟨_, Path.resolvedAs_eq usable.given, short _ (by simp [places]),
      Path.names_resolve usable.named⟩

theorem isTold_loadAs {place : Place} (usable : Usable yaml tree place) :
    IsTold (loadAs yaml tree place.given place.path) := by
  obtain ⟨file, found, short, named⟩ := usable.exists_fileAt
  rw [loadAs, found]
  exact isTold_ofFile short named (usable.readable file found)

end Config

namespace Command
variable {s : Surroundings} {line : List Text} {tree : Tree} {place : Place}

def Reaches (s : Surroundings) (line : List Text) (tree : Tree) (place : Place) : Prop :=
  ∃ arguments file? projectRoot, Arguments.read line = some arguments ∧
    arguments.help = false ∧
    logFile? s arguments = .ok file? ∧ file?.bind (openError? s.tree) = none ∧
    filesOf s arguments file? [] = tree ∧ root s arguments = .ok projectRoot ∧
    configPlace s arguments projectRoot = .ok place

def FailsWith (s : Surroundings) (line : List Text) (message : Text) : Prop :=
  ∃ outcome, run s line = .finished outcome ∧ outcome.exit = 1 ∧ outcome.output = [] ∧
    outcome.errors = "seocheck failed: " ++ message ++ "\n"

theorem failsWith_of_reported {e : ConfigError} (reaches : Reaches s line tree place)
    (failed : Config.loadAs s.yaml tree place.given place.path = .error e)
    (reported : e.isReported = true) : FailsWith s line e.message := by
  obtain ⟨arguments, file?, projectRoot, read, noHelp, log, opened, rfl, found, looked⟩ :=
    reaches
  have ends : configured s arguments (filesOf s arguments file?) =
      .ok (failure e.message, []) := by
    simp only [configured, found, looked, bind, Except.bind, failed, reported, if_true]
    rfl
  let outcome : Outcome :=
    { failure e.message with log := file?.map (·, logLines s arguments []) }
  have made : withArguments s arguments = .ok outcome := by
    simp only [withArguments, log, bind, Except.bind, opened, ends]
    rfl
  refine ⟨outcome, ?_, rfl, rfl, rfl⟩
  rw [run, read]
  simp only [noHelp, Bool.false_eq_true, if_false, made]

end Command

namespace Config

/-- At a usable place, a configuration is loaded, or every command that looks for it there
ends with status 1 and says why it has failed. -/
theorem load_succeeds_or_is_told {yaml : Yaml.Reader} {tree : Tree} {place : Place}
    (usable : Usable yaml tree place) :
    (∃ config, loadAs yaml tree place.given place.path = .ok config) ∨
    ∃ e, loadAs yaml tree place.given place.path = .error e ∧ e.isReported = true ∧
      ∀ s line, s.yaml = yaml → Command.Reaches s line tree place →
        Command.FailsWith s line e.message := by
  rcases isTold_loadAs usable with loaded | ⟨e, failed, reported⟩
  · exact .inl loaded
  · refine .inr ⟨e, failed, reported, fun s line same reaches => ?_⟩
    exact Command.failsWith_of_reported reaches (same ▸ failed) reported

def projectWith (octets : List UInt8) : Tree := .directory [(fileName, .file octets)]

def top : Place := ⟨{ segments := [] }, "/"⟩

theorem top_file (octets : List UInt8) :
    fileAt (projectWith octets) top.given top.path = .ok { segments := [fileName] } := rfl

theorem unclosed_readable :
    ReadableAt Value.read (projectWith [0x5b]) { segments := [fileName] } where
  decodes content looked := by
    cases looked
    exact ⟨"[", rfl⟩
  readable text read := by
    have bracket : (projectWith [0x5b]).readText { segments := [fileName] } = .ok "[" := rfl
    rw [bracket] at read
    cases read
    -- An unclosed bracket is no YAML.
    have malformed : Value.read "[".toList = .error .malformed := rfl
    constructor
    · intro e failed
      rw [malformed] at failed
      exact (Except.error.inj failed).symm
    · intro pairs loaded
      rw [malformed] at loaded
      cases loaded

def bareSurroundings (octets : List UInt8) : Surroundings where
  tree := projectWith octets
  directory := { segments := [] }
  home _ := none
  ci := none
  engine _ _ := .failed "Error" "boom"
  yaml := Value.read
  terminal := .utf8
  stamp := ""

theorem unclosed_is_told :
    Usable Value.read (projectWith [0x5b]) top ∧
    Command.FailsWith (bareSurroundings [0x5b]) []
      "Failed to parse .seocheck.yml: <yaml error>" := by
  have usable : Usable Value.read (projectWith [0x5b]) top := {
    given := by decide
    givenShort := by decide
    named := List.forall_mem_nil _
    short := by decide +kernel
    readable := by
      intro file found
      rw [top_file] at found
      cases found
      exact unclosed_readable }
  have reaches : Command.Reaches (bareSurroundings [0x5b]) [] (projectWith [0x5b]) top :=
    ⟨{}, none, { segments := [] }, rfl, rfl, rfl, rfl, rfl, rfl, rfl⟩
  have failed : loadAs Value.read (projectWith [0x5b]) top.given top.path =
      .error (.malformed fileName) := rfl
  refine ⟨usable, ?_⟩
  rcases load_succeeds_or_is_told usable with ⟨config, loaded⟩ | ⟨e, failed', -, told⟩
  · rw [failed] at loaded
    cases loaded
  · rw [failed] at failed'
    cases failed'
    exact told _ _ rfl reaches

/-- A file that is no text is told of in no words of the command. -/
theorem undecodable_is_not_told :
    ¬ ∀ (tree : Tree) (place : Place) (e : ConfigError),
      loadAs Value.read tree place.given place.path = .error e → e.isReported = true := by
  intro law
  have failed : loadAs Value.read (projectWith [0xff]) top.given top.path =
      .error (.undecodable ⟨0xff, 0, 1, .invalidStart⟩) := rfl
  cases law _ _ _ failed

end Config
end SeoAudit
