import SeoAudit.Metadata.Normalize
import SeoAudit.Proofs.Tables

/-! A metadata record agrees with its own issues. `Metadata.Consistent` reads the stored
lengths, bands and issues off the other fields of the same record, and every record that
is normalised has it, whether the page text or the generator's result decides. -/
namespace SeoAudit

namespace Table
variable {α : Type}

def AllPresent (t : Table Bool) : Prop := ∀ value ∈ values t, value = true

theorem AllPresent.update {t : Table Bool} (all : AllPresent t) (key : Text) :
    AllPresent (update key (fun _ => true) t) := by
  induction t with
  | nil => simp [AllPresent, Table.update, values]
  | cons entry rest ih =>
    obtain ⟨k, v⟩ := entry
    have head : v = true := all v List.mem_cons_self
    have tail : AllPresent rest := fun value member => all value (List.mem_cons_of_mem v member)
    by_cases same : k = key
    · simpa [AllPresent, Table.update, same, values] using tail
    · simpa [AllPresent, Table.update, same, values, head] using ih tail

theorem AllPresent.ofList (keys : List Text) : AllPresent (ofList (keys.map (·, true))) := by
  -- Every insertion keeps the table all present, so the induction is on the keys still to come.
  have fold : ∀ t : Table Bool, AllPresent t →
      AllPresent ((keys.map (·, true)).foldl (fun t (key, value) => insert key value t) t) := by
    induction keys with
    | nil => exact fun t all => all
    | cons key keys ih => exact fun t all => ih _ (all.update key)
  exact fold [] (by simp [AllPresent, values])

theorem AllPresent.getD_eq_contains {t : Table Bool} (all : AllPresent t) (key : Text) :
    (get? key t).getD false = contains key t := by
  rw [contains]
  cases found : get? key t with
  | none => rfl
  | some value => exact all value (mem_values_of_get? found)

end Table

namespace LengthRule

def band (r : LengthRule) (length : Nat) : Text :=
  if length < r.least then "short" else if r.greatest < length then "long" else "optimal"

def Measures (r : LengthRule) (text : Option Text) (length : Int) (band : Option Text) : Prop :=
  match text with
  | none => length = 0 ∧ band = none
  | some t => length = t.length ∧ band = some (r.band t.length)

def issues (r : LengthRule) (text : Option Text) (length : Int) (band : Option Text) : List Text :=
  if text = none then [r.missing]
  else if band = some ↑"short" then [r.message r.short length]
  else if band = some ↑"long" then [r.message r.long length]
  else []

end LengthRule

namespace Metadata

def tagIssues (start : String) (required : List Text) (tags : Table Bool) : List Text :=
  match required.filter (!Table.contains · tags) with
  | [] => []
  | missing => [start ++ Text.joined ", " missing]

/-- The record agrees with its own issues: they are, in this order, those of the title,
the description, the Open Graph tags, the Twitter tags and the canonical link. -/
structure Consistent (m : Metadata) : Prop where
  title : LengthRule.title.Measures m.title m.titleLength m.titleBand
  description : LengthRule.description.Measures m.description m.descriptionLength m.descriptionBand
  issues : m.issues =
    LengthRule.title.issues m.title m.titleLength m.titleBand ++
    LengthRule.description.issues m.description m.descriptionLength m.descriptionBand ++
    tagIssues "Missing Open Graph tags: " ["title", "description", "image", "url"] m.ogTags ++
    tagIssues "Missing Twitter Card tags: " ["card", "title", "description", "image"]
      m.twitterTags ++
    if m.canonical then [] else [Text.ofString "Missing canonical URL"]

theorem measures (r : LengthRule) (text : Option Text) :
    r.Measures text (text.elim 0 fun t => t.length)
      (text.map fun t => (r.bandOf t.length).text) := by
  cases text with
  | none => exact ⟨rfl, rfl⟩
  | some t =>
    have word : (r.bandOf t.length).text = r.band t.length := by
      unfold LengthRule.bandOf LengthRule.band
      split
      · rfl
      · split <;> rfl
    exact ⟨rfl, congrArg some word⟩

theorem judgeLength_messages (r : LengthRule) (text : Option Text) :
    (judgeLength r text).map MetadataIssue.message =
      r.issues text (text.elim 0 fun t => t.length)
        (text.map fun t => (r.bandOf t.length).text) := by
  cases text with
  | none => rfl
  | some t =>
    simp only [judgeLength, LengthRule.issues, Option.elim_some, Option.map_some, reduceCtorEq,
      if_false, Option.some.injEq]
    cases r.bandOf t.length with
    | short => rfl
    | optimal => rfl
    | long => rfl

theorem absent_eq {tags : Table Bool} (all : tags.AllPresent) (required : List Text) :
    absent required tags = required.filter (!Table.contains · tags) := by
  apply List.filter_congr
  intro tag _
  rw [all.getD_eq_contains tag]

theorem judgeTags_messages {tags : Table Bool} (all : tags.AllPresent) {start : String}
    (required : List Text) (issue : List Text → MetadataIssue)
    (words : ∀ missing, (issue missing).message = start ++ Text.joined ", " missing) :
    (judgeTags required issue tags).map MetadataIssue.message = tagIssues start required tags := by
  unfold judgeTags tagIssues
  rw [absent_eq all]
  cases required.filter (!Table.contains · tags) with
  | nil => rfl
  | cons tag rest => simp [words]

theorem judgeCanonical_messages (canonical : Bool) :
    (judgeCanonical canonical).map MetadataIssue.message =
      if canonical then [] else [Text.ofString "Missing canonical URL"] := by
  cases canonical <;> rfl

structure Facts.AllPresent (f : Facts) : Prop where
  ogTags : f.ogTags.AllPresent
  twitterTags : f.twitterTags.AllPresent

theorem ofFacts_consistent {f : Facts} (all : f.AllPresent) (source : Source)
    (schemas : List Schema) (image : Option Text) :
    Consistent { ofFacts source f with schemas, image } where
  title := measures .title f.title
  description := measures .description f.description
  issues := by
    have og := judgeTags_messages all.ogTags requiredOgTags .noOpenGraph fun _ => rfl
    have twitter :=
      judgeTags_messages all.twitterTags requiredTwitterTags .noTwitter fun _ => rfl
    calc (judge f).map MetadataIssue.message
      _ = (judgeLength .title f.title).map MetadataIssue.message ++
          (judgeLength .description f.description).map MetadataIssue.message ++
          (judgeTags requiredOgTags .noOpenGraph f.ogTags).map MetadataIssue.message ++
          (judgeTags requiredTwitterTags .noTwitter f.twitterTags).map MetadataIssue.message ++
          (judgeCanonical f.canonical).map MetadataIssue.message := by
        simp only [judge, List.map_append]
      _ = _ := by
        rw [judgeLength_messages, judgeLength_messages, og, twitter, judgeCanonical_messages]
        rfl

theorem present_allPresent (tags : List Text) : (present tags).AllPresent := by
  intro value member
  simp only [present, Table.values, List.map_map, List.mem_map] at member
  obtain ⟨tag, -, rfl⟩ := member
  rfl

theorem factsOfText_allPresent (text : Text) (declared : Bool) :
    (factsOfText text declared).AllPresent := by
  cases declared with
  | true => exact ⟨present_allPresent _, present_allPresent _⟩
  | false => exact ⟨present_allPresent _, present_allPresent _⟩

theorem factsOfOutput_allPresent (output : Members) (entries : List Json) :
    (factsOfOutput output entries).AllPresent :=
  ⟨Table.AllPresent.ofList _, Table.AllPresent.ofList _⟩

/-- The result has meta entries, and its script holds a text nested too deep to be read. -/
def PayloadTooDeep (output : Option Members) (error : Json.ReadError) : Prop :=
  ∃ o text kind, output = some o ∧ (entries? o).isSome ∧
    scriptPayload? o = some (.string text) ∧ Json.read text = .error (.tooDeep kind) ∧
    error = .tooDeep kind

theorem schemasOfOutput_error {output : Members} {fallback : List Schema} {error : Json.ReadError}
    (failed : schemasOfOutput output fallback = .error error) :
    ∃ text kind, scriptPayload? output = some (.string text) ∧
      Json.read text = .error (.tooDeep kind) ∧ error = .tooDeep kind := by
  unfold schemasOfOutput at failed
  split at failed
  · cases failed
  · rename_i text payload
    split at failed
    · cases failed
    · rename_i kind deep
      cases failed
      exact ⟨text, kind, payload, deep, rfl⟩
    · cases failed
  · cases failed

theorem judged_cases (text : Text) (params : Option Parameters) (output : Option Members)
    (declared : Bool) :
    (∃ source f schemas, Facts.AllPresent f ∧
      judged text params output declared = .ok { ofFacts source f with schemas }) ∨
    ∃ error, PayloadTooDeep output error ∧
      judged text params output declared = .error error := by
  let emitted := (params.map Schema.ofParameters).getD []
  -- The sources differ in their facts only, and only the script of a result can be a fault.
  cases given : output.bind fun o => (entries? o).map (o, ·) with
  | none =>
    refine .inl ⟨.static, factsOfText text declared, emitted,
      factsOfText_allPresent text declared, ?_⟩
    simp only [judged, given]
    rfl
  | some pair =>
    obtain ⟨o, entries⟩ := pair
    cases read : schemasOfOutput o emitted with
    | ok schemas =>
      refine .inl ⟨.dynamic, factsOfOutput o entries, schemas,
        factsOfOutput_allPresent o entries, ?_⟩
      simp only [judged, given]
      exact congrArg (Except.map _) read
    | error error =>
      refine .inr ⟨error, ?_, ?_⟩
      · obtain ⟨payload, kind, script, deep, too_deep⟩ := schemasOfOutput_error read
        obtain ⟨result, is_output, listed⟩ := Option.bind_eq_some_iff.mp given
        obtain ⟨found, listed, same⟩ := Option.map_eq_some_iff.mp listed
        cases same
        exact ⟨o, payload, kind, is_output, by simp [listed], script, deep, too_deep⟩
      · simp only [judged, given]
        exact congrArg (Except.map _) read

theorem normalize_cases (text : Text) (params : Option Parameters) (output : Option Members)
    (declared : Bool) :
    (∃ source f schemas image, Facts.AllPresent f ∧
      normalize text params output declared = .ok { ofFacts source f with schemas, image }) ∨
    ∃ error, PayloadTooDeep output error ∧
      normalize text params output declared = .error error := by
  rcases judged_cases text params output declared with
    ⟨source, f, schemas, all, judged_eq⟩ | ⟨error, deep, judged_eq⟩
  · exact .inl ⟨source, f, _, _, all, congrArg (Except.map _) judged_eq⟩
  · exact .inr ⟨error, deep, congrArg (Except.map _) judged_eq⟩

end Metadata
end SeoAudit
