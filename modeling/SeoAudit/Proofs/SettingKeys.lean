import SeoAudit.Proofs.ConfigFailures

/-! The keys of a configuration and what stands behind them. A setting is looked up by the names
on the way to it, and what a key decides depends on nothing but the value found there. So two
mappings in which a key has the same value, or no value, agree on what it decides. -/
namespace SeoAudit

open Yaml (Value)

namespace Setting
variable {name other : Text} {names others : List Text} {pairs : List (Value × Value)}
  {v w : Value}

def isNamed (name : Text) : Value → Bool
  | .string s => s = name
  | _ => false

def at? : (names : List Text) → Value → Option Value
  | [], v => some v
  | name :: names, v => (Value.get? name (Setting.pairs v)).bind (at? names)

/-- A value without what stands behind some names; all else of it stays. -/
def without : (names : List Text) → Value → Value
  | [name], .mapping pairs => .mapping (pairs.filter fun pair => !isNamed name pair.1)
  | name :: names, .mapping pairs =>
    .mapping (pairs.map fun pair =>
      (pair.1, if isNamed name pair.1 then without names pair.2 else pair.2))
  | _, v => v

theorem isNamed_eq (named : isNamed name v) : v = .string name := by
  cases v with
  | string s => exact congrArg Value.string (of_decide_eq_true named)
  | _ => cases named

theorem isNamed_of_ne (named : isNamed name v) (differ : other ≠ name) :
    isNamed other v = false := by
  rw [isNamed_eq named]
  exact decide_eq_false differ.symm

theorem get?_cons (name : Text) (pair : Value × Value) (pairs : List (Value × Value)) :
    Value.get? name (pair :: pairs) =
      (Value.get? name pairs).or (if isNamed name pair.1 then some pair.2 else none) := by
  obtain ⟨key, v⟩ := pair
  rw [Value.get?, List.reverse_cons, List.findSome?_append]
  congr 1
  cases key <;> simp [isNamed]

theorem get?_removed (name : Text) (pairs : List (Value × Value)) :
    Value.get? name (pairs.filter fun pair => !isNamed name pair.1) = none := by
  induction pairs with
  | nil => rfl
  | cons pair pairs ih =>
    cases named : isNamed name pair.1 with
    | true => rwa [List.filter_cons_of_neg (by simp [named])]
    | false => rw [List.filter_cons_of_pos (by simp [named]), get?_cons, ih, named]; rfl

theorem get?_removed_of_ne (differ : other ≠ name) (pairs : List (Value × Value)) :
    Value.get? other (pairs.filter fun pair => !isNamed name pair.1) = Value.get? other pairs := by
  induction pairs with
  | nil => rfl
  | cons pair pairs ih =>
    cases named : isNamed name pair.1 with
    | true =>
      rw [List.filter_cons_of_neg (by simp [named]), ih, get?_cons, isNamed_of_ne named differ]
      exact (Option.or_none).symm
    | false => rw [List.filter_cons_of_pos (by simp [named]), get?_cons, get?_cons, ih]

theorem get?_replaced (name : Text) (f : Value → Value) (pairs : List (Value × Value)) :
    Value.get? name
        (pairs.map fun pair => (pair.1, if isNamed name pair.1 then f pair.2 else pair.2)) =
      (Value.get? name pairs).map f := by
  induction pairs with
  | nil => rfl
  | cons pair pairs ih =>
    rw [List.map_cons, get?_cons, get?_cons, ih]
    cases isNamed name pair.1 <;> cases Value.get? name pairs <;> rfl

theorem get?_replaced_of_ne (differ : other ≠ name) (f : Value → Value)
    (pairs : List (Value × Value)) :
    Value.get? other
        (pairs.map fun pair => (pair.1, if isNamed name pair.1 then f pair.2 else pair.2)) =
      Value.get? other pairs := by
  induction pairs with
  | nil => rfl
  | cons pair pairs ih =>
    rw [List.map_cons, get?_cons, get?_cons, ih]
    cases named : isNamed name pair.1 with
    | false => rfl
    | true =>
      rw [isNamed_of_ne named differ]
      rfl

theorem at?_append (names others : List Text) (v : Value) :
    at? (names ++ others) v = (at? names v).bind (at? others) := by
  induction names generalizing v with
  | nil => rfl
  | cons name names ih =>
    rw [List.cons_append, at?, at?, Option.bind_assoc]
    exact congrArg _ (funext ih)

theorem get?_without (name : Text) (names : List Text) (v : Value) :
    Value.get? name (Setting.pairs (without (name :: names) v)) =
      if names = [] then none else (Value.get? name (Setting.pairs v)).map (without names) := by
  cases v with
  | mapping pairs =>
    cases names with
    | nil => exact get?_removed name pairs
    | cons next rest => exact get?_replaced name (without (next :: rest)) pairs
  | _ => cases names <;> rfl

theorem get?_without_of_ne (differ : other ≠ name) (names : List Text) (v : Value) :
    Value.get? other (Setting.pairs (without (name :: names) v)) =
      Value.get? other (Setting.pairs v) := by
  cases v with
  | mapping pairs =>
    cases names with
    | nil => exact get?_removed_of_ne differ pairs
    | cons next rest => exact get?_replaced_of_ne differ (without (next :: rest)) pairs
  | _ => cases names <;> rfl

theorem at?_without (some_name : names ≠ []) (v : Value) (others : List Text) :
    at? (names ++ others) (without names v) = none := by
  induction names generalizing v with
  | nil => exact absurd rfl some_name
  | cons name names ih =>
    rw [List.cons_append, at?, get?_without]
    split_ifs with last
    · rfl
    · cases Value.get? name (Setting.pairs v) with
      | none => rfl
      | some w => exact ih last w

/-- Values in which the same stands behind all names but some. -/
def DifferAt (names : List Text) (v w : Value) : Prop :=
  ∀ others, ¬ names <+: others → ¬ others <+: names → at? others v = at? others w

theorem differAt_without (names : List Text) (v : Value) : DifferAt names v (without names v) := by
  induction names generalizing v with
  | nil => exact fun others apart => absurd List.nil_prefix apart
  | cons name names ih =>
    intro others notBehind notBefore
    cases others with
    | nil => exact absurd List.nil_prefix notBefore
    | cons other others =>
      rw [List.cons_prefix_cons, not_and] at notBehind notBefore
      rw [at?, at?]
      by_cases same : other = name
      · subst same
        have longer : names ≠ [] := by
          rintro rfl
          exact notBehind rfl List.nil_prefix
        rw [get?_without, if_neg longer]
        cases Value.get? other (Setting.pairs v) with
        | none => rfl
        | some w => exact ih w others (notBehind rfl) (notBefore rfl)
      · rw [get?_without_of_ne same]

theorem differAt_of_without_eq (same : without names v = without names w) : DifferAt names v w :=
  fun others notBehind notBefore => by
    rw [differAt_without names v others notBehind notBefore, same,
      ← differAt_without names w others notBehind notBefore]

end Setting

namespace Config

inductive Key where
  | pagesDir | sitemapFile | frameworkConfig | generatorFile | ignorePaths | workers
  | evaluation | enabled | timeout | origin | ci | failUnder
deriving DecidableEq, Repr

namespace Key

def names : Key → List Text
  | pagesDir => ["pages_dir"]
  | sitemapFile => ["sitemap_file"]
  | frameworkConfig => ["framework_config"]
  | generatorFile => ["seo_util_file"]
  | ignorePaths => ["ignore_paths"]
  | workers => ["workers"]
  | evaluation => ["sandbox"]
  | enabled => ["sandbox", "enabled"]
  | timeout => ["sandbox", "timeout_ms"]
  | origin => ["sandbox", "origin"]
  | ci => ["ci"]
  | failUnder => ["ci", "fail_under"]

/-- What a key decides; the two sections decide nothing on their own. -/
def Decides : Key → Type
  | pagesDir | sitemapFile | frameworkConfig | generatorFile => Option Path
  | ignorePaths => List Text
  | workers | timeout | failUnder => Int
  | enabled => Bool
  | origin => Text
  | evaluation | ci => Unit

def field (c : Config) : (key : Key) → key.Decides
  | pagesDir => c.pagesDir
  | sitemapFile => c.sitemapFile
  | frameworkConfig => c.frameworkConfig
  | generatorFile => c.generatorFile
  | ignorePaths => c.ignorePaths
  | workers => c.workers
  | enabled => c.evaluate
  | timeout => c.timeout
  | origin => c.origin
  | failUnder => c.failUnder
  | evaluation | ci => ()

def optionally {α : Type} (read : Value → Except ConfigError (Option α)) :
    Option Value → Except ConfigError (Option α)
  | none => .ok none
  | some v => read v

def read (root : Path) : (key : Key) → Option Value → Except ConfigError key.Decides
  | pagesDir, v? | sitemapFile, v? | frameworkConfig, v? | generatorFile, v? =>
    optionally (Setting.path? root) v?
  | ignorePaths, v? =>
    (·.getD ({ root } : Config).ignorePaths) <$> optionally (fun v => some <$> Setting.texts v) v?
  | workers, v? => .ok ((v?.bind Setting.positive?).getD ({ root } : Config).workers)
  | enabled, v? => .ok ((v?.bind Setting.truth?).getD ({ root } : Config).evaluate)
  | timeout, v? => .ok ((v?.bind Setting.positive?).getD ({ root } : Config).timeout)
  | origin, v? => do
    let origin ← optionally Setting.nonempty? v?
    pure ((origin.map Generator.trimOrigin).getD ({ root } : Config).origin)
  | failUnder, v? => .ok ((v?.bind Setting.whole?).getD ({ root } : Config).failUnder)
  | evaluation, _ | ci, _ => .ok ()

end Key

/-- The configuration of which each field is what its key decides. -/
def ofDecisions (root : Path) (decided : (key : Key) → Except ConfigError key.Decides) :
    Except ConfigError Config := do
  let pagesDir ← decided .pagesDir
  let sitemapFile ← decided .sitemapFile
  let frameworkConfig ← decided .frameworkConfig
  let generatorFile ← decided .generatorFile
  let ignorePaths ← decided .ignorePaths
  let origin ← decided .origin
  let workers ← decided .workers
  let evaluate ← decided .enabled
  let timeout ← decided .timeout
  let failUnder ← decided .failUnder
  pure { root, pagesDir, sitemapFile, frameworkConfig, generatorFile, ignorePaths, workers,
         evaluate, timeout, origin, failUnder }

variable {root : Path} {pairs : List (Value × Value)} {v w : Value} {c : Config}

theorem readingM_eq {α : Type} (read : Value → Except ConfigError (Option α)) (name : Text)
    (pairs : List (Value × Value)) :
    readingM read name pairs = Key.optionally read (Setting.at? [name] (.mapping pairs)) := by
  rw [readingM, Setting.at?, Setting.pairs]
  cases Value.get? name pairs <;> rfl

theorem reading_eq {α : Type} (read : Value → Option α) (name : Text)
    (pairs : List (Value × Value)) :
    reading read name pairs = (Setting.at? [name] (.mapping pairs)).bind read := by
  rw [reading, Setting.at?, Setting.pairs]
  cases Value.get? name pairs <;> rfl

theorem at?_inner (outer name : Text) (pairs : List (Value × Value)) :
    Setting.at? [name] (.mapping (((Value.get? outer pairs).map Setting.pairs).getD [])) =
      Setting.at? [outer, name] (.mapping pairs) := by
  rw [Setting.at?, Setting.at?, Setting.pairs, Setting.pairs]
  cases Value.get? outer pairs <;> rfl

theorem ofPairs_eq (root : Path) (pairs : List (Value × Value)) :
    ofPairs root pairs =
      ofDecisions root fun key => key.read root (Setting.at? key.names (.mapping pairs)) := by
  simp only [ofPairs, readingM_eq, reading_eq, at?_inner]
  simp only [ofDecisions, Key.read, Key.names]
  refine bind_congr fun pagesDir => bind_congr fun sitemapFile => bind_congr fun frameworkConfig =>
    bind_congr fun generatorFile => ?_
  cases Key.optionally (fun v => some <$> Setting.texts v) _ with
  | error e => rfl
  | ok ignorePaths => cases Key.optionally Setting.nonempty? _ <;> rfl

namespace Key

def put : (key : Key) → key.Decides → Config → Config
  | pagesDir, value, c => { c with pagesDir := value }
  | sitemapFile, value, c => { c with sitemapFile := value }
  | frameworkConfig, value, c => { c with frameworkConfig := value }
  | generatorFile, value, c => { c with generatorFile := value }
  | ignorePaths, value, c => { c with ignorePaths := value }
  | workers, value, c => { c with workers := value }
  | enabled, value, c => { c with evaluate := value }
  | timeout, value, c => { c with timeout := value }
  | origin, value, c => { c with origin := value }
  | failUnder, value, c => { c with failUnder := value }
  | evaluation, _, c | ci, _, c => c

end Key

section Decisions
variable {decided others : (key : Key) → Except ConfigError key.Decides}

/-- Decisions that are alike but for one key give configurations that are alike but for its
field, or fail alike. -/
theorem ofDecisions_put {key : Key} {x y : key.Decides}
    (same : ∀ other ≠ key, decided other = others other) (here : decided key = .ok x)
    (there : others key = .ok y) :
    ofDecisions root decided = (ofDecisions root others).map (key.put x) := by
  cases key <;>
    simp (disch := decide) only [ofDecisions, map_bind_eq, same, here, there] <;> rfl

end Decisions

theorem read_eq_field (loaded : ofPairs root pairs = .ok c) :
    c.root = root ∧
      ∀ key : Key, key.read root (Setting.at? key.names (.mapping pairs)) =
        .ok (key.field c) := by
  rw [ofPairs_eq, ofDecisions] at loaded
  simp only [bind_eq_ok_iff] at loaded
  obtain ⟨_, pagesDir, _, sitemapFile, _, frameworkConfig, _, generatorFile, _, ignorePaths, _,
    origin, _, workers, _, enabled, _, timeout, _, failUnder, made⟩ := loaded
  cases made
  refine ⟨rfl, fun key => ?_⟩
  cases key with
  | pagesDir => exact pagesDir
  | sitemapFile => exact sitemapFile
  | frameworkConfig => exact frameworkConfig
  | generatorFile => exact generatorFile
  | ignorePaths => exact ignorePaths
  | workers => exact workers
  | enabled => exact enabled
  | timeout => exact timeout
  | origin => exact origin
  | failUnder => exact failUnder
  | evaluation | ci => rfl

def Holds (yaml : Yaml.Reader) (tree : Tree) (place : Place) (root : Path) (v : Value) : Prop :=
  ∃ file text, fileAt tree place.given place.path = .ok file ∧ tree.existsAt file = .ok true ∧
    tree.readText file = .ok text ∧ file.parent = root ∧ (Text.strip text).isEmpty = false ∧
    yaml text.toList = .ok v

theorem Holds.loadAs_eq {yaml : Yaml.Reader} {tree : Tree} {place : Place}
    (holds : Holds yaml tree place root v) :
    loadAs yaml tree place.given place.path = ofValue root v := by
  obtain ⟨file, text, found, there, read, rfl, some_text, made⟩ := holds
  rw [loadAs_of_readText found there read, ofText, some_text, made]
  rfl

end Config
end SeoAudit
