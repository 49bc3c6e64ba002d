import SeoAudit.Generator.Script
import SeoAudit.Proofs.WrittenJson

/-! The arguments in the script of a call. Whatever the parameters are, they are one line of
printable ASCII between two parts of the script that do not depend on them, and the object of
arguments is read back from that line. From the arguments of a call in a page its parameters
are recovered, so different parameters give different lines. -/
namespace SeoAudit

namespace Parameters
open Json Text
variable {p : Parameters} {name : Text} {value : Json}

def line (p : Parameters) : Text := (Json.object p.arguments).line

structure Known (p : Parameters) : Prop where
  collections : ∀ name ∈ Table.keys p.collections, name ∈ collectionNames
  flags : ∀ name ∈ p.flags, name ∈ flagNames
  texts : ∀ entry ∈ p.texts, ∀ text ∈ entry.2, text.HalvesApart

def entries (p : Parameters) : List (Text × Json) :=
  (p.texts.filterMap fun (name, text) => text.map fun t => (name, Json.string t)) ++
    (p.collections.map fun (name, count) => (name, placeholders name count)) ++
    (p.flags.map fun name => (name, Json.object []))

theorem arguments_eq (p : Parameters) : p.arguments = Table.ofList p.entries := rfl

theorem mem_entries : (name, value) ∈ p.entries ↔
    (∃ text, (name, some text) ∈ p.texts ∧ value = .string text) ∨
      (∃ count, (name, count) ∈ p.collections ∧ value = placeholders name count) ∨
        (name ∈ p.flags ∧ value = .object []) := by
  simp only [entries, List.mem_append, List.mem_filterMap, List.mem_map, Prod.exists,
    Option.map_eq_some_iff, Prod.mk.injEq, or_assoc]
  constructor
  · rintro (⟨_, _, member, text, rfl, rfl, rfl⟩ | ⟨_, count, member, rfl, rfl⟩ |
      ⟨_, member, rfl, rfl⟩)
    · exact .inl ⟨text, member, rfl⟩
    · exact .inr (.inl ⟨count, member, rfl⟩)
    · exact .inr (.inr ⟨member, rfl⟩)
  · rintro (⟨text, member, rfl⟩ | ⟨count, member, rfl⟩ | ⟨member, rfl⟩)
    · exact .inl ⟨name, some text, member, text, rfl, rfl, rfl⟩
    · exact .inr (.inl ⟨name, count, member, rfl, rfl⟩)
    · exact .inr (.inr ⟨name, member, rfl, rfl⟩)

def textNames : List Text := ["title", "description", "image"]

def argumentNames : List Text := textNames ++ collectionNames ++ flagNames

theorem argumentNames_eq : argumentNames =
    ["title", "description", "image", "faqs", "products", "services", "branches", "news",
      "grant", "contactPage", "awards", "breadcrumb"].map ofString := rfl

theorem exists_string (known : name ∈ argumentNames) : ∃ n : String, n = name := by
  rw [argumentNames_eq] at known
  obtain ⟨n, -, same⟩ := List.mem_map.mp known
  exact ⟨n, same⟩

theorem Known.mem_argumentNames (known : p.Known) (member : (name, value) ∈ p.entries) :
    name ∈ argumentNames := by
  simp only [argumentNames, List.mem_append]
  rcases mem_entries.mp member with ⟨text, given, -⟩ | ⟨count, given, -⟩ | ⟨given, -⟩
  · exact .inl (.inl (List.mem_map_of_mem (f := (·.1)) given))
  · exact .inl (.inr (known.collections name (List.mem_map_of_mem given)))
  · exact .inr (known.flags name given)

theorem label_halvesApart (known : name ∈ argumentNames) (position : Nat) :
    (name ++ "-" ++ toString position : Text).HalvesApart := by
  obtain ⟨n, rfl⟩ := exists_string known
  have characters : (n ++ "-" ++ toString position : Text) =
      ofChars (n.toList ++ '-' :: (toString position).toList) := by
    simp [ofString, ofChars]
  exact characters ▸ halvesApart_ofChars _

theorem placeholder_readsBack (known : name ∈ argumentNames) (position depth : Nat) :
    ReadsBack (depth + 1) (placeholder name position) := by
  have label := ReadsBack.string (label_halvesApart known position) depth
  have distinct : (["name", "question", "answer"] : List Text).Nodup := by decide
  refine ReadsBack.object ?_ distinct ?_
  · simp only [List.mem_cons, List.not_mem_nil, or_false, forall_eq_or_imp, forall_eq]
    exact ⟨halvesApart_ofChars _, halvesApart_ofChars _, halvesApart_ofChars _⟩
  · simp only [List.mem_cons, List.not_mem_nil, or_false, forall_eq_or_imp, forall_eq]
    exact ⟨label, label, ReadsBack.string (halvesApart_ofChars []) depth⟩

theorem placeholder_visible (name : Text) (position : Nat) :
    Visible (placeholder name position).line := by
  refine visible_object ?_
  simp only [List.mem_cons, List.not_mem_nil, or_false, forall_eq_or_imp, forall_eq]
  exact ⟨visible_stringText _, visible_stringText _, visible_stringText _⟩

theorem placeholders_readsBack (known : name ∈ argumentNames) (count : Int) (depth : Nat) :
    ReadsBack (depth + 2) (placeholders name count) := by
  refine ReadsBack.array fun item member => ?_
  obtain ⟨i, -, rfl⟩ := List.mem_map.mp member
  exact placeholder_readsBack known (i + 1) depth

theorem placeholders_visible (name : Text) (count : Int) :
    Visible (placeholders name count).line := by
  refine visible_array fun item member => ?_
  obtain ⟨i, -, rfl⟩ := List.mem_map.mp member
  exact placeholder_visible name (i + 1)

theorem line_visible (p : Parameters) : Visible p.line := by
  refine visible_object fun (name, value) member => ?_
  rcases mem_entries.mp (Table.mem_of_mem_ofList member) with
    ⟨text, -, rfl⟩ | ⟨count, -, rfl⟩ | ⟨-, rfl⟩
  · exact visible_stringText text
  · exact placeholders_visible name count
  · exact visible_object (List.forall_mem_nil _)

theorem Known.readsBack (known : p.Known) : ReadsBack depthLimit (.object p.arguments) := by
  show ReadsBack (985 + 2 + 1) (.object p.arguments)
  refine ReadsBack.object ?_ (Table.nodup_keys_ofList p.entries) ?_
  · rintro ⟨name, value⟩ member
    obtain ⟨n, rfl⟩ := exists_string (known.mem_argumentNames (Table.mem_of_mem_ofList member))
    exact halvesApart_ofChars _
  · rintro ⟨name, value⟩ member
    have entry := Table.mem_of_mem_ofList member
    rcases mem_entries.mp entry with ⟨text, given, rfl⟩ | ⟨count, given, rfl⟩ |
      ⟨given, rfl⟩
    · exact ReadsBack.string (known.texts _ given text rfl) _
    · exact placeholders_readsBack (known.mem_argumentNames entry) count _
    · exact ReadsBack.object (List.forall_mem_nil _) List.nodup_nil (List.forall_mem_nil _)

section Recovery

def ofArguments (arguments : Members) : Parameters where
  title := Table.get? "title" arguments >>= Json.string?
  description := Table.get? "description" arguments >>= Json.string?
  image := Table.get? "image" arguments >>= Json.string?
  collections := collectionNames.filterMap fun name =>
    ((Table.get? name arguments >>= Json.items?).map fun items =>
      (items.length : Int)).map (name, ·)
  flags := flagNames.filter (Table.contains · arguments)

def ofLine? (line : Text) : Option Parameters :=
  match Json.read line with
  | .ok (.object arguments) => some (ofArguments arguments)
  | _ => none

structure Ordered (p : Parameters) : Prop where
  collections : (Table.keys p.collections).Sublist collectionNames
  flags : p.flags.Sublist flagNames
  counts : ∀ entry ∈ p.collections, 0 < entry.2

theorem Ordered.nodup (ordered : p.Ordered) : (Table.keys p.entries).Nodup := by
  have distinct : argumentNames.Nodup := by decide
  have keys : Table.keys p.entries =
      Table.keys (p.texts.filterMap fun (name, text) => text.map fun t => (name, Json.string t)) ++
        Table.keys p.collections ++ p.flags := by
    simp [entries, Table.keys, Function.comp_def]
  have texts := Table.keys_present_sublist Json.string p.texts
  rw [keys]
  exact ((texts.append ordered.collections).append ordered.flags).nodup distinct

theorem Ordered.get?_arguments (ordered : p.Ordered) :
    Table.get? name p.arguments = some value ↔
      (∃ text, (name, some text) ∈ p.texts ∧ value = .string text) ∨
        (∃ count, (name, count) ∈ p.collections ∧ value = placeholders name count) ∨
          (name ∈ p.flags ∧ value = .object []) := by
  rw [arguments_eq, Table.ofList_of_nodup ordered.nodup, ← Table.mem_iff_get? ordered.nodup,
    mem_entries]

theorem Ordered.text (ordered : p.Ordered) {text : Option Text} (given : (name, text) ∈ p.texts) :
    (Table.get? name p.arguments >>= Json.string?) = text := by
  have distinct : (Table.keys p.texts).Nodup := (by decide : textNames.Nodup)
  cases text with
  | some t =>
    rw [ordered.get?_arguments.mpr (.inl ⟨t, given, rfl⟩)]
    rfl
  | none =>
    cases found : Table.get? name p.arguments with
    | none => rfl
    | some value =>
      rcases ordered.get?_arguments.mp found with ⟨t, other, rfl⟩ | ⟨_, -, rfl⟩ |
        ⟨-, rfl⟩
      · rw [Table.mem_iff_get? distinct] at given other
        simp [given] at other
      · rfl
      · rfl

theorem Ordered.collection (ordered : p.Ordered) (name : Text) :
    (Table.get? name p.arguments >>= Json.items?).map (fun items => (items.length : Int)) =
      Table.get? name p.collections := by
  have distinct : (Table.keys p.collections).Nodup := ordered.collections.nodup (by decide)
  cases size : Table.get? name p.collections with
  | some count =>
    have given := (Table.mem_iff_get? distinct).mpr size
    have positive := ordered.counts _ given
    rw [ordered.get?_arguments.mpr (.inr (.inl ⟨count, given, rfl⟩))]
    simp [placeholders, Json.items?]
    omega
  | none =>
    cases found : Table.get? name p.arguments with
    | none => rfl
    | some value =>
      rcases ordered.get?_arguments.mp found with ⟨_, -, rfl⟩ | ⟨_, other, rfl⟩ |
        ⟨-, rfl⟩
      · rfl
      · rw [Table.mem_iff_get? distinct, size] at other
        cases other
      · rfl

theorem Ordered.flag (ordered : p.Ordered) (known : name ∈ flagNames) :
    Table.contains name p.arguments = p.flags.contains name := by
  rw [Bool.eq_iff_iff, List.contains_iff_mem, Table.contains, Option.isSome_iff_exists]
  constructor
  · rintro ⟨value, found⟩
    have apart : ∀ name ∈ flagNames, name ∉ textNames ++ collectionNames := by decide
    rcases ordered.get?_arguments.mp found with ⟨_, given, -⟩ | ⟨_, given, -⟩ |
      ⟨given, -⟩
    · have listed : name ∈ Table.keys p.texts := List.mem_map_of_mem (f := (·.1)) given
      exact absurd (List.mem_append_left _ listed) (apart name known)
    · have listed : name ∈ Table.keys p.collections := List.mem_map_of_mem (f := (·.1)) given
      exact absurd (List.mem_append_right _ (ordered.collections.mem listed)) (apart name known)
    · exact given
  · exact fun given => ⟨.object [], ordered.get?_arguments.mpr (.inr (.inr ⟨given, rfl⟩))⟩

theorem Ordered.ofArguments_eq (ordered : p.Ordered) : ofArguments p.arguments = p := by
  have texts : ∀ entry ∈ p.texts, (Table.get? entry.1 p.arguments >>= Json.string?) = entry.2 :=
    fun _ => ordered.text
  simp only [Parameters.texts, List.mem_cons, List.not_mem_nil, or_false, forall_eq_or_imp,
    forall_eq] at texts
  obtain ⟨title, description, image⟩ := texts
  have collections : (collectionNames.filterMap fun name =>
      ((Table.get? name p.arguments >>= Json.items?).map fun items => (items.length : Int)).map
        (name, ·)) =
        p.collections := by
    simp only [ordered.collection]
    exact Table.filterMap_get?_of_sublist (by decide) ordered.collections
  have flags : flagNames.filter (Table.contains · p.arguments) = p.flags := by
    rw [List.filter_congr fun name => ordered.flag]
    exact filter_contains_of_sublist ordered.flags (by decide)
  rw [ofArguments, title, description, image, collections, flags]

end Recovery

section Extraction
variable {page block : Text}

theorem collection?_eq_some {entry : Text × Int} (found : collection? block name = some entry) :
    entry.1 = name ∧ 0 < entry.2 := by
  rw [collection?] at found
  split at found
  · cases found
    refine ⟨rfl, ?_⟩
    show 0 < sizeOf _
    unfold sizeOf
    split
    · decide
    · rename_i several
      exact Int.natCast_pos.mpr (Nat.pos_of_ne_zero several)
  · cases found

theorem ordered_ofBlock (block : Text) : (ofBlock block).Ordered where
  collections := Table.keys_filterMap_sublist (fun _ _ found => (collection?_eq_some found).1) _
  flags := List.filter_sublist
  counts entry member := by
    obtain ⟨name, -, found⟩ := List.mem_filterMap.mp member
    exact (collection?_eq_some found).2

theorem text?_within {text : Text} (found : text? name block = some text) : text <:+: block := by
  obtain ⟨⟨_, rest⟩, first, rfl⟩ := Option.map_eq_some_iff.mp found
  obtain ⟨u, suffix, here⟩ := suffix_of_findFirst first
  exact (NamedField.text_within here).trans suffix.isInfix

theorem known_ofBlock (apart : block.HalvesApart) : (ofBlock block).Known where
  collections name member := (ordered_ofBlock block).collections.mem member
  flags name member := (ordered_ofBlock block).flags.mem member
  texts entry member text given := by
    simp only [texts, List.mem_cons, List.not_mem_nil, or_false] at member
    rcases member with rfl | rfl | rfl
    all_goals exact apart.within (text?_within given)

theorem block_within (found : callBlock? page = some block) : block <:+: page := by
  obtain ⟨⟨_, rest⟩, first, rfl⟩ := Option.map_eq_some_iff.mp found
  obtain ⟨u, suffix, here⟩ := suffix_of_findFirst first
  simp only [call, Option.bind_eq_bind, Option.bind_eq_some_iff] at here
  obtain ⟨v, named, w, parenthesis, x, brace, ended⟩ := here
  rw [after?_eq_some] at named
  obtain ⟨y, same, -, -⟩ := eq_append_of_upTo ended
  have inside : x <:+ page :=
    (NamedField.behindBlanks_suffix brace).trans <|
      (NamedField.behindBlanks_suffix parenthesis).trans <|
      (named ▸ List.suffix_append generatorName v).trans suffix
  exact (same ▸ List.prefix_append _ y).isInfix.trans inside.isInfix

theorem extracted (apart : page.HalvesApart) (found : ofText? page = some p) :
    p.Known ∧ p.Ordered := by
  obtain ⟨block, call, rfl⟩ := Option.map_eq_some_iff.mp found
  exact ⟨known_ofBlock (apart.within (block_within call)), ordered_ofBlock block⟩

end Extraction

end Parameters

namespace Script
open Text

theorem joined_append (lines : List Text) {more : List Text} (nonempty : more ≠ []) :
    joined "\n" (lines ++ more) = ofLines lines ++ joined "\n" more := by
  induction lines with
  | nil => rfl
  | cons first lines ih =>
    obtain ⟨next, others, same⟩ :=
      List.exists_cons_of_ne_nil (List.append_ne_nil_of_right_ne_nil lines nonempty)
    rw [List.cons_append, same, joined_cons_cons, ← same, ih, ofLines, ofLines, List.flatMap_cons]
    simp only [List.append_assoc]

/-- What carries the parameters to the generator: one line, and no other part of the script. -/
structure Carries (origin definition : Text) (p : Parameters) : Prop where
  script : assemble origin definition p.arguments =
    ofLines (opening origin) ++ definition ++ "\n" ++
      "const params = " ++ p.line ++ ";" ++ "\n" ++ joined "\n" ending
  visible : Json.Visible p.line
  decoded : Json.read p.line = .ok (.object p.arguments)

theorem carries (origin definition : Text) {p : Parameters} (known : p.Known) :
    Carries origin definition p where
  script := by
    have ends : ending ≠ [] := List.cons_ne_nil _ _
    rw [assemble, List.append_assoc, joined_append _ (by simp)]
    obtain ⟨first, rest, same⟩ := List.exists_cons_of_ne_nil ends
    rw [same, List.cons_append, List.cons_append, List.nil_append, joined_cons_cons,
      joined_cons_cons]
    simp only [argumentLine, Parameters.line, List.append_assoc]
  visible := p.line_visible
  decoded := known.readsBack.read

/-- Whatever the page, the script changes in its one line of arguments only; the arguments
are read back from that line, and those of a call in a page give its parameters. -/
theorem arguments_survive (origin definition : Text) :
    (∀ p : Parameters, p.Known → Carries origin definition p) ∧
      (∀ page p, page.HalvesApart → Parameters.ofText? page = some p →
        p.Known ∧ Parameters.ofLine? p.line = some p) ∧
      ∀ page other p q, page.HalvesApart → other.HalvesApart →
        Parameters.ofText? page = some p → Parameters.ofText? other = some q →
          p ≠ q → p.line ≠ q.line := by
  have recovered {page : Text} {p : Parameters} (apart : page.HalvesApart)
      (found : Parameters.ofText? page = some p) :
      p.Known ∧ Parameters.ofLine? p.line = some p := by
    obtain ⟨known, ordered⟩ := Parameters.extracted apart found
    refine ⟨known, ?_⟩
    rw [Parameters.ofLine?, (carries origin definition known).decoded]
    exact congrArg some ordered.ofArguments_eq
  refine ⟨fun p => carries origin definition, fun page p => recovered, ?_⟩
  intro page other p q apart apart' found found' differs same
  have first := (recovered apart found).2
  rw [same, (recovered apart' found').2] at first
  exact differs (Option.some.inj first).symm

def oakPage : Text := Text.ofString <|
  "generateSEO(\x7b title: 'Oak \\ \u2028 🌳\n', " ++
    "faqs: [\x7b q: 1 \x7d, \x7b q: 2 \x7d], grant: \x7b a: 1 \x7d \x7d)"

def oakParameters : Parameters where
  title := some (Text.ofString "Oak \\ \u2028 🌳\n")
  collections := [("faqs", 2)]
  flags := ["grant"]

def elmPage : Text := "generateSEO (\x7b\x7d)"

theorem oak_arguments_survive :
    Carries "oak" "const generateSEO = 1;" oakParameters ∧
      Parameters.ofLine? oakParameters.line = some oakParameters ∧
      oakParameters.line ≠ Parameters.line {} := by
  have oak : Parameters.ofText? oakPage = some oakParameters := by decide +kernel
  have elm : Parameters.ofText? elmPage = some {} := by decide +kernel
  obtain ⟨carried, recovered, differ⟩ := arguments_survive "oak" "const generateSEO = 1;"
  have oakApart : oakPage.HalvesApart := Text.halvesApart_ofChars _
  have elmApart : elmPage.HalvesApart := Text.halvesApart_ofChars _
  obtain ⟨known, whole⟩ := recovered oakPage oakParameters oakApart oak
  exact ⟨carried oakParameters known, whole,
    differ oakPage elmPage oakParameters {} oakApart elmApart oak elm (by decide)⟩

end Script
end SeoAudit
