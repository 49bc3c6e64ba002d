import Mathlib.Data.List.DropRight
import SeoAudit.Proofs.SettingKeys

/-! Settings that do not fit their key. Each is passed over, so that the configuration is the one
without the key, but for two that leave a field empty where the default would stand: ignored
paths that are no list, and an origin of nothing but slashes. -/
namespace SeoAudit

open Yaml (Value)

namespace Setting
variable {v : Value}

def IsTextual : Value → Prop
  | .string s => s ≠ []
  | .number _ | .bool _ => True
  | _ => False

def IsWhole (n : Int) (v : Value) : Prop :=
  v = .number (.whole n) ∨ ∃ s, v = .string s ∧ Text.readWhole? s = some n

def IsTruth : Value → Prop
  | .bool _ => True
  | .string s => Text.lower (Text.strip s) ∈
      (["true", "yes", "1", "false", "no", "0"] : List Text)
  | _ => False

def IsTexts : Value → Prop
  | .string _ | .sequence _ | .bytes _ | .null => True
  | _ => False

def IsMapping (v : Value) : Prop := ∃ pairs, v = .mapping pairs

theorem nonempty?_of_unfit (unfit : ¬ IsTextual v) : nonempty? v = .ok none := by
  cases v with
  | string s =>
    rw [IsTextual, not_not] at unfit
    rw [unfit]
    rfl
  | number | bool => exact absurd trivial unfit
  | _ => rfl

theorem path?_of_unfit (root : Path) (unfit : ¬ IsTextual v) : path? root v = .ok none := by
  rw [path?, nonempty?_of_unfit unfit]
  rfl

theorem whole?_eq_some {n : Int} (read : whole? v = some n) : IsWhole n v := by
  cases v with
  | string s => exact .inr ⟨s, rfl, read⟩
  | number m =>
    cases m with
    | whole m => exact .inl (congrArg (Value.number ∘ Number.whole) (Option.some.inj read))
    | fraction => cases read
  | _ => cases read

theorem whole?_of_unfit (unfit : ¬ ∃ n, IsWhole n v) : whole? v = none :=
  Option.eq_none_iff_forall_ne_some.mpr fun n read => unfit ⟨n, whole?_eq_some read⟩

theorem positive?_of_unfit (unfit : ¬ ∃ n > 0, IsWhole n v) : positive? v = none := by
  rw [positive?]
  split
  · rename_i n read
    exact if_neg fun positive => unfit ⟨n, positive, whole?_eq_some read⟩
  · rfl

theorem truth?_of_unfit (unfit : ¬ IsTruth v) : truth? v = none := by
  cases v with
  | bool b => exact absurd trivial unfit
  | string s =>
    simp only [IsTruth, List.mem_cons, List.not_mem_nil, or_false, not_or] at unfit
    simp [truth?, unfit]
  | _ => rfl

theorem texts_of_unfit (unfit : ¬ IsTexts v) : texts v = .ok [] := by
  cases v with
  | string | sequence | bytes | null => exact absurd trivial unfit
  | _ => rfl

theorem pairs_of_unfit (unfit : ¬ IsMapping v) : Setting.pairs v = [] := by
  cases v with
  | mapping pairs => exact absurd ⟨pairs, rfl⟩ unfit
  | _ => rfl

theorem trimOrigin_slashes {s : Text} (slashes : ∀ c ∈ s, c = .char '/') :
    Generator.trimOrigin s = [] :=
  List.rdropWhile_eq_nil_iff.mpr fun c member => decide_eq_true (slashes c member)

end Setting

namespace Config
variable {root : Path} {v w : Value}

namespace Key
open Setting

/-- A value of a kind that a key accepts. -/
def Accepts : Key → Value → Prop
  | pagesDir, v | sitemapFile, v | frameworkConfig, v | generatorFile, v => IsTextual v
  | ignorePaths, v => IsTexts v
  | workers, v | timeout, v => ∃ n > 0, IsWhole n v
  | enabled, v => IsTruth v
  | origin, v => IsTextual v ∧ ∀ s, v = .string s → ∃ c ∈ s, c ≠ .char '/'
  | failUnder, v => ∃ n, IsWhole n v
  | evaluation, v | ci, v => IsMapping v

/-- What a value that is not accepted does to the configuration without its key. -/
def leaves : Key → Value → Config → Config
  | ignorePaths, _, c => { c with ignorePaths := [] }
  | origin, .string (_ :: _), c => { c with origin := [] }
  | _, _, c => c

def IsSection (key : Key) : Prop := key = evaluation ∨ key = ci

theorem isSection_of_leads {key other : Key} (leads : key.names <+: other.names)
    (differ : other ≠ key) : key.IsSection := by
  cases key <;> first
    | exact .inl rfl
    | exact .inr rfl
    | exact absurd leads (by revert differ; cases other <;> decide)

theorem read_section {key : Key} (outer : key.IsSection) (root : Path) (v? v?' : Option Value) :
    key.read root v? = key.read root v?' := by
  obtain rfl | rfl := outer <;> rfl

theorem not_isMapping {key : Key} (outer : key.IsSection) (unfit : ¬ key.Accepts w) :
    ¬ IsMapping w := by
  obtain rfl | rfl := outer <;> exact unfit

theorem names_ne_nil (key : Key) : key.names ≠ [] := by cases key <;> decide

theorem read_none (key : Key) (root : Path) : key.read root none = .ok (key.field { root }) := by
  cases key <;> rfl

theorem read_of_unfit {key : Key} (root : Path) (unfit : ¬ key.Accepts w) :
    key.read root (some w) = .ok (key.field (key.leaves w { root })) := by
  cases key with
  | pagesDir | sitemapFile | frameworkConfig | generatorFile => exact path?_of_unfit root unfit
  | ignorePaths =>
    simp only [read, optionally, texts_of_unfit unfit]
    rfl
  | workers | timeout =>
    simp only [read, Option.bind_some, positive?_of_unfit unfit]
    rfl
  | enabled =>
    simp only [read, Option.bind_some, truth?_of_unfit unfit]
    rfl
  | failUnder =>
    simp only [read, Option.bind_some, whole?_of_unfit unfit]
    rfl
  | evaluation | ci => rfl
  | origin =>
    by_cases textual : IsTextual w
    · obtain ⟨s, rfl, slashes⟩ : ∃ s, w = .string s ∧ ∀ c ∈ s, c = .char '/' := by
        simpa only [Accepts, textual, true_and, not_forall, not_exists, not_and, not_not,
          exists_prop] using unfit
      obtain ⟨c, cs, rfl⟩ := List.exists_cons_of_ne_nil textual
      simp only [read, optionally, nonempty?, text?, bind, Except.bind, pure, Except.pure,
        Option.map_some, Option.getD_some, trimOrigin_slashes slashes]
      rfl
    · simp only [read, optionally, nonempty?_of_unfit textual]
      cases w with
      | string s => rw [not_not.mp textual]; rfl
      | _ => rfl

theorem put_leaves (key : Key) (w : Value) (c : Config)
    (absent : key.field c = key.field { root }) :
    key.put (key.field (key.leaves w { root })) c = key.leaves w c := by
  have put_field : key.put (key.field c) c = c := by cases key <;> rfl
  cases key with
  | ignorePaths => rfl
  | origin =>
    match w with
    | .string (_ :: _) => rfl
    | .string [] | .null | .bool _ | .number _ | .bytes _ | .timestamp | .sequence _ | .mapping _
    | .set _ => rwa [absent] at put_field
  | _ => rwa [absent] at put_field

theorem read_without {key other : Key} (root : Path) (there : at? key.names v = some w)
    (unfit : ¬ key.Accepts w) (differ : other ≠ key) :
    other.read root (at? other.names v) =
      other.read root (at? other.names (without key.names v)) := by
  by_cases outside : other.names <+: key.names
  · exact read_section (isSection_of_leads outside differ.symm) root _ _
  by_cases inside : key.names <+: other.names
  · have noMapping := not_isMapping (isSection_of_leads inside differ) unfit
    obtain ⟨rest, names⟩ := inside
    -- Behind a section that is no mapping there is nothing, and neither is there without it.
    have gone : at? rest w = none := by
      cases rest with
      | nil =>
        have same : key.names = other.names := (List.append_nil _).symm.trans names
        exact absurd (same ▸ List.prefix_rfl) outside
      | cons name rest =>
        exact congrArg (fun pairs => (Value.get? name pairs).bind (at? rest))
          (pairs_of_unfit noMapping)
    rw [← names, at?_without key.names_ne_nil, at?_append, there, Option.bind_some, gone]
  · rw [differAt_without key.names v other.names inside outside]

end Key

theorem exists_pairs {names : List Text} (some_name : names ≠ [])
    (there : Setting.at? names v = some w) :
    ∃ pairs, v = .mapping pairs := by
  cases names with
  | nil => exact absurd rfl some_name
  | cons name names =>
    cases v with
    | mapping pairs => exact ⟨pairs, rfl⟩
    | _ => cases there

theorem exists_pairs_without {names : List Text} (some_name : names ≠ [])
    (pairs : List (Value × Value)) :
    ∃ rest, Setting.without names (.mapping pairs) = .mapping rest := by
  match names with
  | [_] | _ :: _ :: _ => exact ⟨_, rfl⟩

theorem ofValue_of_unfit {key : Key} (there : Setting.at? key.names v = some w)
    (unfit : ¬ key.Accepts w) (root : Path) :
    ofValue root v = (ofValue root (Setting.without key.names v)).map (key.leaves w) := by
  obtain ⟨pairs, rfl⟩ := exists_pairs key.names_ne_nil there
  obtain ⟨rest, without⟩ := exists_pairs_without key.names_ne_nil pairs
  have absent : Setting.at? key.names (.mapping rest) = none := by
    have gone := Setting.at?_without key.names_ne_nil (.mapping pairs) []
    rwa [List.append_nil, without] at gone
  have fallsBack : key.read root (Setting.at? key.names (.mapping rest)) =
      .ok (key.field { root }) := by
    rw [absent, key.read_none root]
  have others : ∀ other ≠ key, other.read root (Setting.at? other.names (.mapping pairs)) =
      other.read root (Setting.at? other.names (.mapping rest)) := fun other differ => by
    rw [Key.read_without root there unfit differ, without]
  have here : key.read root (Setting.at? key.names (.mapping pairs)) =
      .ok (key.field (key.leaves w { root })) := by rw [there, Key.read_of_unfit root unfit]
  rw [without, ofValue, ofValue, ofPairs_eq, ofDecisions_put others here fallsBack, ← ofPairs_eq]
  cases loaded : ofPairs root rest with
  | error e => rfl
  | ok c =>
    have field : key.field c = key.field { root } := by
      have decided := (read_eq_field loaded).2 key
      rw [fallsBack] at decided
      exact (Except.ok.inj decided).symm
    exact congrArg Except.ok (key.put_leaves w c field)

/-- A setting that its key does not accept is passed over: the configuration is the one without
it, but for ignored paths that are no list and for an origin of slashes, which leave their
field empty. -/
theorem unfit_settings_are_passed_over {key : Key} (there : Setting.at? key.names v = some w)
    (unfit : ¬ key.Accepts w) :
    (∀ root, ofValue root v = (ofValue root (Setting.without key.names v)).map (key.leaves w)) ∧
    ∀ (root : Path) (yaml : Yaml.Reader) (tree tree' : Tree) (place place' : Place),
      Holds yaml tree place root v →
      Holds yaml tree' place' root (Setting.without key.names v) →
      loadAs yaml tree place.given place.path =
        (loadAs yaml tree' place'.given place'.path).map (key.leaves w) := by
  refine ⟨ofValue_of_unfit there unfit,
    fun root yaml tree tree' place place' holds without => ?_⟩
  rw [holds.loadAs_eq, without.loadAs_eq]
  exact ofValue_of_unfit there unfit root

def wholes? : Value → Option (List (Text × Int))
  | .mapping pairs => ofList pairs
  | _ => none
where
  ofList : List (Value × Value) → Option (List (Text × Int))
    | [] => some []
    | (.string name, .number (.whole n)) :: pairs => (ofList pairs).map ((name, n) :: ·)
    | _ => none

def ofWholes (wholes : List (Text × Int)) : Value :=
  .mapping (wholes.map fun (name, n) => (.string name, .number (.whole n)))

theorem eq_of_wholes? {wholes : List (Text × Int)} (shown : wholes? v = some wholes) :
    v = ofWholes wholes := by
  cases v with
  | mapping pairs =>
    refine congrArg Value.mapping ?_
    rw [wholes?] at shown
    induction pairs using wholes?.ofList.induct generalizing wholes with
    | case1 =>
      cases shown
      rfl
    | case2 name n pairs ih =>
      rw [wholes?.ofList, Option.map_eq_some_iff] at shown
      obtain ⟨rest, shown, rfl⟩ := shown
      exact congrArg (_ :: ·) (ih shown)
    | case3 pairs other other' =>
      rw [wholes?.ofList] at shown <;> first | assumption | cases shown
  | _ => cases shown

theorem holds_top {octets : List UInt8} (text : String) {wholes : List (Text × Int)}
    (decodes : Utf8.readText octets = .ok text) (some_text : (Text.strip text).isEmpty = false)
    (shown : (Value.read text.toList).toOption.bind wholes? = some wholes) :
    Holds Value.read (projectWith octets) top { segments := [] } (ofWholes wholes) := by
  have read : (projectWith octets).readText { segments := [fileName] } = .ok text := by
    have found : (projectWith octets).lookup { segments := [fileName] } = .ok (.file octets) := rfl
    rw [Tree.readText, found]
    dsimp only
    rw [decodes]
  obtain ⟨v, made, shown⟩ := Option.bind_eq_some_iff.mp shown
  refine ⟨_, text, top_file octets, rfl, read, rfl, some_text, ?_⟩
  rw [← eq_of_wholes? shown]
  exact toOption_eq_some_iff.mp made

def negativeWorkers : List UInt8 := "workers: -2".toUTF8.toList

def emptyMapping : List UInt8 := "\x7b\x7d".toUTF8.toList

theorem negativeWorkers_are_passed_over :
    Setting.at? Key.workers.names (ofWholes [("workers", -2)]) = some (.number (.whole (-2))) ∧
    ¬ Key.workers.Accepts (.number (.whole (-2))) ∧
    Holds Value.read (projectWith negativeWorkers) top { segments := [] }
      (ofWholes [("workers", -2)]) ∧
    Holds Value.read (projectWith emptyMapping) top { segments := [] } (ofWholes []) ∧
    loadAs Value.read (projectWith negativeWorkers) top.given top.path =
      loadAs Value.read (projectWith emptyMapping) top.given top.path := by
  have there : Setting.at? Key.workers.names (ofWholes [("workers", -2)]) =
      some (.number (.whole (-2))) := rfl
  have unfit : ¬ Key.workers.Accepts (.number (.whole (-2))) := by
    rintro ⟨n, positive, same | ⟨s, same, -⟩⟩
    · cases same
      exact absurd positive (by decide)
    · cases same
  have holds : Holds Value.read (projectWith negativeWorkers) top { segments := [] }
      (ofWholes [("workers", -2)]) :=
    holds_top "workers: -2" (by decide +kernel) (by decide +kernel) (by decide +kernel)
  have without : Holds Value.read (projectWith emptyMapping) top { segments := [] } (ofWholes []) :=
    holds_top "\x7b\x7d" (by decide +kernel) (by decide +kernel) (by decide +kernel)
  refine ⟨there, unfit, holds, without, ?_⟩
  have same := (unfit_settings_are_passed_over there unfit).2 _ _ _ _ _ _ holds without
  cases loaded : loadAs Value.read (projectWith emptyMapping) top.given top.path with
  | ok c => rwa [loaded] at same
  | error e => rwa [loaded] at same

/-- Ignored paths that are a number are not passed over: no path is ignored, where without the
key the usual ones are. -/
theorem ignoredNumber_is_not_passed_over :
    ¬ ∀ (root : Path) (v : Value) (key : Key) (w : Value), Setting.at? key.names v = some w →
      ¬ key.Accepts w → ofValue root v = ofValue root (Setting.without key.names v) := by
  intro law
  have same := law { segments := [] } (ofWholes [("ignore_paths", 5)]) .ignorePaths
    (.number (.whole 5)) rfl id
  have differ : (ofValue { segments := [] } (ofWholes [("ignore_paths", 5)])).toOption.map
      (·.ignorePaths) ≠ (ofValue { segments := [] } (Setting.without Key.ignorePaths.names
        (ofWholes [("ignore_paths", 5)]))).toOption.map (·.ignorePaths) := by decide +kernel
  exact differ (by rw [same])

end Config
end SeoAudit
