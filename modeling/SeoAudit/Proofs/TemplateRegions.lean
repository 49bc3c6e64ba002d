import SeoAudit.Markup.Headings
import SeoAudit.Markup.Images
import SeoAudit.Proofs.TagFinds

/-! The part of a page that its markup is read from. A text with a template is taken apart at
the first opening tag, the first end of a tag behind that and the first closing tag behind
that; the region is what lies between the last two. Nothing else of the text, neither what
stands in the opening tag nor other templates, plays a part for headings and images. -/
namespace SeoAudit
namespace Markup
open Text

def written (attributes body behind : Text) : Text :=
  ("<template" : Text) ++ (attributes ++ .char '>' :: (body ++ (("</template>" : Text) ++ behind)))

/-- A text taken apart at its template: what stands before the opening tag, between the name
and the end of that tag, up to the closing tag, and behind. -/
structure Template where
  before : Text
  attributes : Text
  body : Text
  behind : Text
  first : ¬ ("<template" : Text) <:+: before
  closed : .char '>' ∉ attributes
  shortest : ¬ ("</template>" : Text) <:+: body

def Template.text (t : Template) : Text :=
  t.before ++ written t.attributes t.body t.behind

def HoldsTemplate (text : Text) : Prop :=
  ∃ before attributes body behind : Text, .char '>' ∉ attributes ∧
    text = before ++ written attributes body behind

variable {text region s body behind : Text}

theorem opening_borderless : Borderless "<template" := by
  unfold Borderless
  decide

theorem closing_borderless : Borderless "</template>" := by
  unfold Borderless
  decide

theorem opening_ne_nil : ("<template" : Text) ≠ [] := by decide

theorem closing_ne_nil : ("</template>" : Text) ≠ [] := by decide

theorem template_eq_some_iff : template s = some (body, behind) ↔
    ∃ attributes : Text, .char '>' ∉ attributes ∧ ¬ ("</template>" : Text) <:+: body ∧
      s = written attributes body behind := by
  simp only [template, Option.bind_eq_bind, Option.bind_eq_some_iff, Prod.exists, after?_eq_some,
    tagRest_eq_some, upTo_after?_eq_some_iff closing_borderless closing_ne_nil]
  constructor
  · rintro ⟨_, rfl, _, _, ⟨rfl, attributes, rfl, free⟩, rfl, shortest⟩
    exact ⟨attributes, free, shortest, by simp [written]⟩
  · rintro ⟨attributes, free, shortest, rfl⟩
    exact ⟨_, rfl, attributes ++ [.char '>'], _, ⟨by simp, attributes, rfl, free⟩, rfl,
      shortest⟩

theorem template_beginsWith : BeginsWith "<template" template := by
  intro s differs
  rw [template, after?_eq_none_iff.mpr differs]
  rfl

theorem region?_text (t : Template) : region? t.text = some t.body := by
  have here : template (written t.attributes t.body t.behind) = some (t.body, t.behind) :=
    template_eq_some_iff.mpr ⟨t.attributes, t.closed, t.shortest, rfl⟩
  have skips : Skips template t.before (written t.attributes t.body t.behind) :=
    template_beginsWith.skips_of_borderless opening_borderless t.first _
  rw [region?, Template.text, skips.findFirst_append, findFirst_of_some here]
  rfl

theorem exists_template (holds : HoldsTemplate text) : ∃ t : Template, t.text = text := by
  obtain ⟨x, attributes, body, y, -, rfl⟩ := holds
  have opens : ("<template" : Text) <:+: x ++ written attributes body y :=
    ⟨x, attributes ++ .char '>' :: (body ++ (("</template>" : Text) ++ y)), by simp [written]⟩
  obtain ⟨before, rest, same, first⟩ :=
    exists_first_of_infix opening_borderless opening_ne_nil opens
  have later := suffix_of_first opening_borderless first same.symm
  have ended : .char '>' :: (body ++ (("</template>" : Text) ++ y)) <:+ rest :=
    (List.suffix_append attributes _).trans later
  obtain ⟨inner, region, rfl, closed⟩ :=
    List.eq_append_cons_of_mem (ended.subset List.mem_cons_self)
  -- Its first end of a tag comes no later than that of the given one.
  have inside : body ++ (("</template>" : Text) ++ y) <:+ region := by
    rcases List.suffix_cons_iff.mp (suffix_of_foreign closed ended) with whole | part
    · exact (List.cons.inj whole).2 ▸ List.suffix_refl _
    · exact (List.suffix_cons _ _).trans part
  have closes : ("</template>" : Text) <:+: body ++ (("</template>" : Text) ++ y) :=
    ⟨body, y, List.append_assoc ..⟩
  obtain ⟨region, behind, rfl, shortest⟩ :=
    exists_first_of_infix closing_borderless closing_ne_nil (closes.trans inside.isInfix)
  exact ⟨⟨before, inner, region, behind, first, closed, shortest⟩, same.symm⟩

theorem region?_eq_none_iff : region? text = none ↔ ¬ HoldsTemplate text := by
  constructor
  · rintro nothing holds
    obtain ⟨t, rfl⟩ := exists_template holds
    rw [region?_text] at nothing
    cases nothing
  · intro nothing
    simp only [region?, findFirst, Option.map_eq_none_iff]
    cases place : upTo template text with
    | none => rfl
    | some found =>
      obtain ⟨u, rfl, -, here⟩ := eq_append_of_upTo place
      obtain ⟨attributes, free, -, rfl⟩ := template_eq_some_iff.mp here
      exact absurd ⟨_, attributes, _, _, free, rfl⟩ nothing

theorem region?_eq_some_iff :
    region? text = some region ↔ ∃ t : Template, t.text = text ∧ t.body = region := by
  constructor
  · intro found
    have holds : HoldsTemplate text := by
      by_contra nothing
      rw [region?_eq_none_iff.mpr nothing] at found
      cases found
    obtain ⟨t, rfl⟩ := exists_template holds
    exact ⟨t, rfl, Option.some.inj ((region?_text t).symm.trans found)⟩
  · rintro ⟨t, rfl, rfl⟩
    exact region?_text t

/-- There is a region exactly in a text with a template, and then it is the body of the first
one. Without it there are no headings and images, and with it they are told by the body alone. -/
theorem only_region_is_read :
    (∀ text, region? text = none ↔ ¬ HoldsTemplate text) ∧
    (∀ text, region? text = none → Headings.ofText text = {} ∧ Images.ofText text = {}) ∧
    (∀ text region, region? text = some region →
      ¬ ("</template>" : Text) <:+: region ∧ ∃ t : Template, t.text = text ∧
        t.body = region) ∧
    (∀ t : Template, region? t.text = some t.body) ∧
    ∀ t u : Template, t.body = u.body →
      Headings.ofText t.text = Headings.ofText u.text ∧
      Images.ofText t.text = Images.ofText u.text := by
  refine ⟨fun text => region?_eq_none_iff, fun text nothing => ?_, fun text region found => ?_,
    region?_text, fun t u same => ?_⟩
  · rw [Headings.ofText, Images.ofText, nothing]
    exact ⟨rfl, rfl⟩
  · obtain ⟨t, rfl, rfl⟩ := region?_eq_some_iff.mp found
    exact ⟨t.shortest, t, rfl, rfl⟩
  · have regions : region? t.text = region? u.text := by
      rw [region?_text, region?_text, same]
    rw [Headings.ofText, Images.ofText, regions]
    exact ⟨rfl, rfl⟩

def crowdedTemplate : Template where
  before := "<templat <h1>"
  attributes := " <template </template"
  body := "<template><h2>"
  behind := "<img></template><template><h1></template>"
  first := by decide +kernel
  closed := by decide
  shortest := by decide +kernel

def bareTemplate : Template where
  before := []
  attributes := []
  body := "<template><h2>"
  behind := []
  first := by decide +kernel
  closed := by decide
  shortest := by decide +kernel

def brokenOff : Text := "<template><h1><img></template"

theorem crowdedTemplate_and_brokenOff_are_read :
    region? brokenOff = none ∧ Headings.ofText brokenOff = {} ∧ Images.ofText brokenOff = {} ∧
    region? crowdedTemplate.text = some "<template><h2>" ∧
    ¬ ("</template>" : Text) <:+: "<template><h2>" ∧
    crowdedTemplate.body = bareTemplate.body ∧
      (Headings.ofText bareTemplate.text).levels = [2] ∧
    Headings.ofText crowdedTemplate.text = Headings.ofText bareTemplate.text ∧
    Images.ofText crowdedTemplate.text = Images.ofText bareTemplate.text := by
  obtain ⟨-, empty, regions, bodies, alike⟩ := only_region_is_read
  have nothing : region? brokenOff = none := by decide +kernel
  have found : region? crowdedTemplate.text = some "<template><h2>" := bodies crowdedTemplate
  have levels : (Headings.ofText bareTemplate.text).levels = [2] := by decide +kernel
  obtain ⟨headings, images⟩ := alike crowdedTemplate bareTemplate rfl
  exact ⟨nothing, (empty _ nothing).1, (empty _ nothing).2, found, (regions _ _ found).1, rfl,
    levels, headings, images⟩

end Markup
end SeoAudit
