import SeoAudit.Proofs.PassedOverSettings

/-! What every configuration that is loaded can be used for, and what its keys have to do with
each other: nothing. A configuration is loaded unless a whole number where a text is wanted is
too long to be written. -/
namespace SeoAudit

open Yaml (Value)

namespace Path

theorem resolveFrom_of_not_mem {segments : List Text} (noUp : (".." : Text) ∉ segments)
    (above : List Text) : resolveFrom above segments = above.reverse ++ segments := by
  induction segments generalizing above with
  | nil => exact (List.append_nil _).symm
  | cons segment rest ih =>
    obtain ⟨here, later⟩ := (not_or.mp (mt List.mem_cons.mpr noUp))
    rw [resolveFrom, if_neg (Ne.symm here), ih later, List.reverse_cons, List.append_assoc]
    rfl

theorem resolve_resolve (p : Path) : p.resolve.resolve = p.resolve := by
  rw [resolve, resolveFrom_of_not_mem (not_mem_resolve p)]
  rfl

theorem eq_resolve_of_resolved {p q : Path} (resolved : p.resolved = .ok q) : q = p.resolve := by
  unfold Path.resolved resolvedAs at resolved
  split at resolved
  · cases resolved
  · exact (Except.ok.inj resolved).symm

theorem isAbsoluteText_text (p : Path) : isAbsoluteText p.text = true := by
  unfold text
  split <;> rfl

end Path

namespace Setting
variable {v : Value}

theorem resolve_path? {root p : Path} (read : path? root v = .ok (some p)) : p.resolve = p := by
  rw [path?, bind_eq_ok_iff] at read
  obtain ⟨text, -, read⟩ := read
  cases text with
  | none => cases read
  | some s =>
    obtain ⟨q, resolved, same⟩ := map_eq_ok_iff.mp read
    rw [← Option.some.inj same, Path.eq_resolve_of_resolved (mapError_eq_ok_iff.mp resolved),
      Path.resolve_resolve]

theorem pos_of_positive? {n : Int} (read : positive? v = some n) : 0 < n := by
  rw [positive?] at read
  split at read
  · split_ifs at read with positive
    rwa [← Option.some.inj read]
  · cases read

theorem getLast?_trimOrigin (s : Text) :
    (Generator.trimOrigin s).getLast? ≠ some (.char '/') := by
  intro last
  obtain ⟨some_text, last⟩ := List.mem_getLast?_eq_getLast last
  exact List.rdropWhile_last_not (· = CodePoint.char '/') s some_text (decide_eq_true last.symm)

theorem trimOrigin_trimOrigin (s : Text) :
    Generator.trimOrigin (Generator.trimOrigin s) = Generator.trimOrigin s :=
  List.rdropWhile_idempotent _ s

end Setting

namespace Config
variable {root : Path} {pairs others : List (Value × Value)} {c c' : Config} {names : List Text}

structure IsUsable (c : Config) : Prop where
  workers : 1 ≤ c.workers
  timeout : 1 ≤ c.timeout
  origin : c.origin.getLast? ≠ some (.char '/')
  trimmed : Generator.trimOrigin c.origin = c.origin
  place (p : Path) : some p ∈ [c.pagesDir, c.sitemapFile, c.frameworkConfig, c.generatorFile] →
    Path.isAbsoluteText p.text ∧ p.resolve = p

theorem one_le_limit {v? : Option Value} {usual : Int} (positive : 1 ≤ usual) :
    1 ≤ (v?.bind Setting.positive?).getD usual := by
  cases found : v?.bind Setting.positive? with
  | none => exact positive
  | some n =>
    obtain ⟨v, -, read⟩ := Option.bind_eq_some_iff.mp found
    exact Setting.pos_of_positive? read

theorem resolve_place {v? : Option Value} {p : Path} {place? : Option Path}
    (read : Key.optionally (Setting.path? root) v? = .ok place?) (here : some p = place?) :
    p.resolve = p := by
  subst here
  cases v? with
  | none => cases read
  | some v => exact Setting.resolve_path? read

theorem trimmed_origin {v? : Option Value} {s : Text} (read : Key.origin.read root v? = .ok s) :
    s.getLast? ≠ some (.char '/') ∧ Generator.trimOrigin s = s := by
  obtain ⟨origin, -, made⟩ := bind_eq_ok_iff.mp read
  rw [← Except.ok.inj made]
  cases origin with
  | none =>
    show List.getLast? ("https://example.com" : Text) ≠ some (.char '/') ∧
      Generator.trimOrigin "https://example.com" = "https://example.com"
    decide
  | some t => exact ⟨Setting.getLast?_trimOrigin t, Setting.trimOrigin_trimOrigin t⟩

theorem isUsable_of_loaded (loaded : ofPairs root pairs = .ok c) : c.IsUsable := by
  have decided := (read_eq_field loaded).2
  obtain ⟨origin, trimmed⟩ := trimmed_origin (decided .origin)
  refine ⟨?_, ?_, origin, trimmed, fun p listed => ⟨p.isAbsoluteText_text, ?_⟩⟩
  · exact (one_le_limit (by decide : (1 : Int) ≤ 4)).trans_eq (Except.ok.inj (decided .workers))
  · exact (one_le_limit (by decide : (1 : Int) ≤ 2000)).trans_eq
      (Except.ok.inj (decided .timeout))
  · simp only [List.mem_cons, List.not_mem_nil, or_false] at listed
    obtain here | here | here | here := listed
    · exact resolve_place (decided .pagesDir) here
    · exact resolve_place (decided .sitemapFile) here
    · exact resolve_place (decided .frameworkConfig) here
    · exact resolve_place (decided .generatorFile) here

/-- What a key decides is seen by no other: mappings with the same behind its names agree on
its field. -/
theorem field_eq (loaded : ofPairs root pairs = .ok c) (loaded' : ofPairs root others = .ok c')
    (differ : Setting.DifferAt names (.mapping pairs) (.mapping others)) (key : Key)
    (notBehind : ¬ names <+: key.names) (notBefore : ¬ key.names <+: names) :
    key.field c = key.field c' := by
  have decided := (read_eq_field loaded).2 key
  rw [differ key.names notBehind notBefore, (read_eq_field loaded').2 key] at decided
  exact (Except.ok.inj decided).symm

/-- Settings whose numbers can be written where a text is wanted are loaded, from a mapping and
from any file that holds it, into a configuration that can be used; and settings that
differ from them at one key only give one that differs in what that key decides only. -/
theorem settings_are_usable_and_independent (rootNamed : ∀ s ∈ root.segments, Path.Names s)
    (settings : WritableSettings pairs) :
    ∃ c, ofPairs root pairs = .ok c ∧ c.root = root ∧ c.IsUsable ∧
      (∀ yaml tree place, Holds yaml tree place root (.mapping pairs) →
        loadAs yaml tree place.given place.path = .ok c) ∧
      ∀ names others c', Setting.DifferAt names (.mapping pairs) (.mapping others) →
        ofPairs root others = .ok c' → c'.root = c.root ∧
          ∀ key : Key, ¬ names <+: key.names → ¬ key.names <+: names →
            key.field c = key.field c' := by
  obtain ⟨c, loaded⟩ := exists_ofPairs rootNamed settings
  have sameRoot := (read_eq_field loaded).1
  refine ⟨c, loaded, sameRoot, isUsable_of_loaded loaded, fun yaml tree place holds => ?_,
    fun names others c' differ loaded' => ⟨?_, field_eq loaded loaded' differ⟩⟩
  · rw [holds.loadAs_eq]
    exact loaded
  · rw [(read_eq_field loaded').1, sameRoot]

def eightWorkers : List (Value × Value) := [(.string "workers", .number (.whole 8))]

theorem eightWorkers_are_writable : WritableSettings eightWorkers := by
  have noPath : ∀ key ∈ pathKeys, (Value.get? key eightWorkers).isNone := by decide
  refine ⟨fun key listed v there => ?_, nofun, nofun⟩
  have none := noPath key listed
  rw [there] at none
  cases none

theorem eightWorkers_are_usable :
    Holds Value.read (projectWith "workers: 8".toUTF8.toList) top { segments := [] }
      (.mapping eightWorkers) ∧
    Setting.DifferAt ["workers"] (.mapping eightWorkers) (.mapping []) ∧
    ∃ c c', loadAs Value.read (projectWith "workers: 8".toUTF8.toList) top.given top.path =
      .ok c ∧
      ofPairs { segments := [] } [] = .ok c' ∧ c.IsUsable ∧ c.workers = 8 ∧ c'.workers = 4 ∧
      ∀ key : Key, key ≠ .workers → key.field c = key.field c' := by
  have holds : Holds Value.read (projectWith "workers: 8".toUTF8.toList) top { segments := [] }
      (ofWholes [("workers", 8)]) :=
    holds_top "workers: 8" (by decide +kernel) (by decide +kernel) (by decide +kernel)
  have differ : Setting.DifferAt ["workers"] (.mapping eightWorkers) (.mapping []) :=
    Setting.differAt_of_without_eq rfl
  have rootNamed : ∀ s ∈ ({ segments := [] } : Path).segments, Path.Names s :=
    List.forall_mem_nil _
  obtain ⟨c, loaded, -, usable, read, apart⟩ :=
    settings_are_usable_and_independent rootNamed eightWorkers_are_writable
  have bare : ofPairs { segments := [] } [] = .ok { root := { segments := [] } } := rfl
  refine ⟨holds, differ, c, _, read _ _ _ holds, bare, usable, ?_, rfl, fun key other => ?_⟩
  · exact (Except.ok.inj ((read_eq_field loaded).2 .workers)).symm
  · refine (apart _ _ _ differ bare).2 key ?_ ?_ <;> revert other <;> cases key <;> decide

def endless : Nat := Nat.pow 16 3600

theorem wholeText_endless : Setting.wholeText endless = .error .numberTooLong := by
  refine if_neg ?_
  rw [Int.natAbs_natCast, Nat.toString_eq_ofList_toDigits, String.length_ofList,
    Nat.length_toDigits_le_iff (by decide) (by decide)]
  decide +kernel

/-- An origin that is a number too long to be written is not passed over; nothing is loaded. -/
theorem endlessOrigin_is_not_loaded :
    ¬ ∀ pairs, ∃ c, ofPairs { segments := [] } pairs = .ok c := by
  intro law
  let number : Value := .number (.whole endless)
  obtain ⟨c, loaded⟩ := law [(.string "sandbox", .mapping [(.string "origin", number)])]
  have read := (read_eq_field loaded).2 .origin
  have there : Setting.at? Key.origin.names
      (.mapping [(.string "sandbox", .mapping [(.string "origin", number)])]) = some number := rfl
  rw [there, Key.read, Key.optionally, Setting.nonempty?, Setting.text?, wholeText_endless] at read
  cases read

end Config
end SeoAudit
