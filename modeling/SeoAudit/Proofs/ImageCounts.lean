import SeoAudit.Proofs.AltGain
import SeoAudit.Proofs.PageAnalysis
import SeoAudit.Proofs.Percentages
import SeoAudit.Proofs.TagFinds

/-! The numbers of images, from the tags of a text to the score card. Plain and optimised image
tags are found by two searches; an optimised one is found by its own search only, unless a
plain one begins inside it. Each tag counts once as one with or without alternative text, so
those without are a part of all on each page and on the card, and the score is a share. -/
namespace SeoAudit

namespace ImageIssue
variable {n : Nat} {coverage : Int}
open Text

theorem withoutAlt_message : (withoutAlt n coverage).message =
    ofString (toString (n : Int)) ++ .char ' ' :: (ofString "images missing alt text (" ++
      (ofString (toString coverage) ++ ofString "% coverage)")) := by
  have images : ofString " images missing alt text (" =
      .char ' ' :: ofString "images missing alt text (" := by decide +kernel
  show ofString (toString n ++ " images missing alt text (" ++ toString coverage ++
    "% coverage)") = _
  simp only [ofString_append, List.append_assoc, images, List.cons_append]
  rfl

theorem withoutAlt_message_ne : (withoutAlt n coverage).message ≠ eagerLoading.message := by
  intro same
  have word := congrArg (List.takeWhile (· ≠ .char ' ')) same
  have first : eagerLoading.message.takeWhile (· ≠ .char ' ') = ("Consider" : Text) := by
    decide +kernel
  rw [withoutAlt_message, takeWhile_toString, ofString_toString_int, if_neg (by omega),
    first] at word
  have letter : CodePoint.char 'C' ∈ decimal n :=
    word ▸ (by decide : CodePoint.char 'C' ∈ ("Consider" : Text))
  exact absurd (decimal_isDigits n _ letter) (by decide)

theorem message_injective : Function.Injective message := by
  intro a b same
  cases a with
  | withoutAlt m other =>
    cases b with
    | withoutAlt n coverage =>
      rw [withoutAlt_message, withoutAlt_message] at same
      obtain ⟨count, behind⟩ := toString_space_inj same
      have shares := List.append_cancel_right (List.append_cancel_left behind)
      rw [Int.ofNat_inj.mp count, ofString_toString_inj shares]
    | eagerLoading => exact absurd same withoutAlt_message_ne
  | eagerLoading =>
    cases b with
    | withoutAlt => exact absurd same.symm withoutAlt_message_ne
    | eagerLoading => rfl

end ImageIssue

namespace Images

/-- Numbers of images that agree with each other and with the issues. -/
structure Agree (i : Images) : Prop where
  split : i.withAlt + i.withoutAlt = i.total
  withAlt_nonneg : 0 ≤ i.withAlt
  withoutAlt_nonneg : 0 ≤ i.withoutAlt
  lazy_nonneg : 0 ≤ i.lazyCount
  lazy_le : i.lazyCount ≤ i.total
  missing (n : Nat) : (∃ coverage, (ImageIssue.withoutAlt n coverage).message ∈ i.issues) ↔
    0 < i.withoutAlt ∧ n = i.withoutAlt
  eager : ImageIssue.eagerLoading.message ∈ i.issues ↔ 2 < i.total - i.lazyCount
  once : i.issues.Nodup
  told : ∀ issue ∈ i.issues, ∃ known : ImageIssue, issue = known.message

section Issues
variable {total withAlt withoutAlt lazyCount : Nat}

theorem mem_judge_eagerLoading :
    .eagerLoading ∈ judge total withAlt withoutAlt lazyCount ↔
      2 < total ∧ lazyCount < total - 2 := by
  unfold judge
  split_ifs <;> simp_all

theorem nodup_judge : (judge total withAlt withoutAlt lazyCount).Nodup := by
  unfold judge
  split_ifs <;> simp

end Issues

theorem agree_ofTags (tags : List Text) : (ofTags tags).Agree := by
  have sum : tags.length = tags.countP hasAlt + tags.countP (!hasAlt ·) := by
    simpa using List.length_eq_countP_add_countP hasAlt
  have within : tags.countP isLazy ≤ tags.length := List.countP_le_length
  have eager : (2 : Int) < tags.length - tags.countP isLazy ↔
      2 < tags.length ∧ tags.countP isLazy < tags.length - 2 := by omega
  have member (issue : ImageIssue) : issue.message ∈ (ofTags tags).issues ↔
      issue ∈ judge tags.length (tags.countP hasAlt) (tags.countP (!hasAlt ·))
      (tags.countP isLazy) :=
    List.mem_map_of_injective ImageIssue.message_injective
  exact {
    split := (congrArg Int.ofNat sum).symm
    withAlt_nonneg := Int.natCast_nonneg _
    withoutAlt_nonneg := Int.natCast_nonneg _
    lazy_nonneg := Int.natCast_nonneg _
    lazy_le := Int.ofNat_le.mpr within
    missing n := by
      simp only [member, mem_judge_withoutAlt, exists_and_left, exists_eq, and_true]
      exact and_congr Int.ofNat_lt.symm Int.ofNat_inj.symm
    eager := (member .eagerLoading).trans (mem_judge_eagerLoading.trans eager.symm)
    once := List.Nodup.map ImageIssue.message_injective nodup_judge
    told issue listed := by
      obtain ⟨known, -, rfl⟩ := List.mem_map.mp listed
      exact ⟨known, rfl⟩ }

theorem agree_ofText (text : Text) : (ofText text).Agree := by
  unfold ofText
  cases Markup.region? text with
  | none => exact agree_ofTags []
  | some region => exact agree_ofTags (tags region)

theorem before_of_first {α : Type} {c : α} {a b o v : List α} (once : c ∉ o)
    (some_item : a ≠ []) (same : c :: o ++ v = a ++ c :: b) : c :: o <+: a := by
  have first : c :: o <+: a ++ c :: b := ⟨v, same⟩
  rcases List.prefix_or_prefix_of_prefix first (List.prefix_append a _) with inside |
    ⟨z, reaches⟩
  · exact inside
  · cases z with
    | nil => exact ⟨[], by simpa using reaches.symm⟩
    | cons d z =>
      obtain ⟨e, a, rfl⟩ := List.exists_cons_of_ne_nil some_item
      obtain ⟨rfl, rfl⟩ := List.cons.inj reaches
      have whole : (e :: a) ++ (d :: z ++ v) = (e :: a) ++ e :: b := by
        rw [← same]
        simp
      obtain ⟨rfl, -⟩ := List.cons.inj (List.append_cancel_left whole)
      exact absurd (List.mem_append_right a List.mem_cons_self) once

section Tags
open Markup (Spells IsTag tag)
open Text (EndsOnce findAll)
variable {literal : String} {w start inner : Text}

def Opens (literal : String) (w : Text) : Prop :=
  ∃ before start rest, w = before ++ (start ++ rest) ∧ Spells literal.toList start

/-- Whether a plain image tag that begins in a text is still open at its end. -/
def OpensImage (w : Text) : Prop :=
  ∃ before start rest, w = before ++ (start ++ rest) ∧ Spells "<img".toList start ∧
    CodePoint.char '>' ∉ rest

theorem image_letters : "<img".toList = ['<', 'i', 'm', 'g'] := rfl

theorem optimised_letters : "<nuxtimg".toList = ['<', 'n', 'u', 'x', 't', 'i', 'm', 'g'] := rfl

theorem image_endless : ∀ letter ∈ "<img".toList, Markup.sameLetter letter '>' = false := by
  rw [image_letters]
  simp [Markup.sameLetter]

theorem optimised_endless :
    ∀ letter ∈ "<nuxtimg".toList, Markup.sameLetter letter '>' = false := by
  rw [optimised_letters]
  simp [Markup.sameLetter]

theorem image_start (spells : Spells "<img".toList start) :
    ∃ c name, start = .char '<' :: .char c :: name ∧ Markup.sameLetter 'i' c ∧
      .char '<' ∉ CodePoint.char c :: name := by
  rw [image_letters] at spells
  exact spells.tag_start (by simp [Markup.sameLetter])

theorem optimised_start (spells : Spells "<nuxtimg".toList start) :
    ∃ c name, start = .char '<' :: .char c :: name ∧ Markup.sameLetter 'n' c ∧
      .char '<' ∉ CodePoint.char c :: name := by
  rw [optimised_letters] at spells
  exact spells.tag_start (by simp [Markup.sameLetter])

theorem not_opens_of_unmarked (free : CodePoint.char '<' ∉ w) : ¬ Opens "<img" w := by
  rintro ⟨before, start, rest, rfl, spells⟩
  obtain ⟨c, name, rfl, -, -⟩ := image_start spells
  simp at free

section Pieces
variable (noEnd : ∀ letter ∈ literal.toList, Markup.sameLetter letter '>' = false)
include noEnd

theorem tags_closed : ∀ m a : Text, a = m ∧ IsTag literal m → EndsOnce m :=
  fun _ _ kind => Markup.endsOnce_of_isTag noEnd kind.2

theorem length_findAll_of_opens (piece : .char '>' ∉ w) (opens : Opens literal w) :
    (findAll (tag literal) (w ++ [.char '>'])).length = 1 := by
  obtain ⟨before, start, rest, rfl, spells⟩ := opens
  have free : .char '>' ∉ rest := fun member => piece (by simp [member])
  have isTag : IsTag literal (start ++ rest ++ [.char '>']) :=
    ⟨start, rest ++ [.char '>'], List.append_assoc .., spells, rest, rfl, free⟩
  exact Text.length_findAll_closing (Markup.tag_recognises literal) (tags_closed noEnd) piece
    (List.suffix_append before _) ⟨rfl, isTag⟩

theorem findAll_of_not_opens (piece : .char '>' ∉ w) (nothing : ¬ Opens literal w) :
    findAll (tag literal) (w ++ [.char '>']) = [] := by
  refine Text.findAll_closing_eq_nil (Markup.tag_recognises literal) (tags_closed noEnd) piece ?_
  rintro _ ⟨before, rfl⟩ ⟨m, -, start, rest, same, spells, inner, rfl, -⟩
  rw [← List.append_assoc] at same
  exact nothing ⟨before, start, inner, by rw [List.append_cancel_right same], spells⟩

end Pieces

theorem opensImage_iff {front tail : Text} (isFront : Text.IsFront front)
    (noEnd : .char '>' ∉ tail) :
    OpensImage (front ++ tail) ↔ Opens "<img" tail := by
  constructor
  · rintro ⟨before, start, rest, same, spells, free⟩
    have open_ : .char '>' ∉ start ++ rest := by simp [free, spells.not_mem image_endless]
    obtain ⟨x, inside⟩ := Text.suffix_of_open isFront open_ ⟨before, same.symm⟩
    exact ⟨x, start, rest, inside.symm, spells⟩
  · rintro ⟨before, start, rest, rfl, spells⟩
    exact ⟨front ++ before, start, rest, (List.append_assoc ..).symm, spells,
      fun member => noEnd (by simp [member])⟩

theorem not_both_letters {c : Char} (i : Markup.sameLetter 'i' c) : ¬ Markup.sameLetter 'n' c := by
  intro n
  have n : c = 'n' ∨ c.toLower = 'n' := by simpa [Markup.sameLetter] using n
  rcases n with rfl | n
  · exact absurd i (by decide)
  · have i : c = 'i' ∨ c = '\u0130' ∨ c = '\u0131' := by
      simpa [Markup.sameLetter, n] using i
    rcases i with rfl | rfl | rfl <;> exact absurd n (by decide)

theorem opens_append_optimised {tail : Text} (spells : Spells "<nuxtimg".toList start)
    (noImage : ¬ Opens "<img" inner) :
    Opens "<img" (tail ++ (start ++ inner)) ↔ Opens "<img" tail := by
  obtain ⟨n, name, rfl, isN, once⟩ := optimised_start spells
  constructor
  · rintro ⟨before, image, rest, same, spellsImage⟩
    obtain ⟨i, name', rfl, isI, once'⟩ := image_start spellsImage
    -- The two kinds of tags differ in the letter behind the mark.
    have apart :
        (.char '<' :: .char i :: name') ++ rest ≠ (.char '<' :: .char n :: name) ++ inner := by
      intro same
      have letter := (List.cons.inj (List.cons.inj same).2).1
      exact not_both_letters isI (CodePoint.char.inj letter ▸ isN)
    rcases List.append_eq_append_iff.mp same with ⟨y, rfl, across⟩ | ⟨y, rfl, behind⟩
    · cases y with
      | nil => exact absurd across.symm apart
      | cons d y =>
        have later := (List.cons.inj across).2
        obtain ⟨x, inside⟩ := suffix_of_foreign once ⟨y, later.symm⟩
        exact absurd ⟨x, _, rest, inside.symm, spellsImage⟩ noImage
    · by_cases here : y = []
      · subst here
        exact absurd behind apart
      · obtain ⟨z, rfl⟩ := before_of_first once' here behind
        exact ⟨before, _, z, rfl, spellsImage⟩
  · rintro ⟨before, image, rest, rfl, spells⟩
    exact ⟨before, image, rest ++ ((.char '<' :: .char n :: name) ++ inner), by simp, spells⟩

/-- An optimised image tag counts once, whatever is around it, when no plain one begins inside
it. A plain one that is open in front of it is closed by it and counts as well. -/
theorem length_tags_optimised (spells : Spells "<nuxtimg".toList start)
    (free : CodePoint.char '>' ∉ inner) (noImage : ¬ Opens "<img" inner) (before after : Text) :
    let total := (tags (before ++ (start ++ inner ++ .char '>' :: after))).length
    (OpensImage before → total = (tags before).length + 2 + (tags after).length) ∧
    (¬ OpensImage before → total = (tags before).length + 1 + (tags after).length) := by
  obtain ⟨front, tail, rfl, isFront, tailFree⟩ := Text.exists_open_end before
  have piece : .char '>' ∉ tail ++ (start ++ inner) := by
    simp [tailFree, free, spells.not_mem optimised_endless]
  have plain := Text.length_findAll_insert (Markup.tag_recognises "<img")
    (tags_closed image_endless) isFront tailFree (start ++ inner) after
  have optimised := Text.length_findAll_insert (Markup.tag_recognises "<nuxtimg")
    (tags_closed optimised_endless) isFront tailFree (start ++ inner) after
  have once := length_findAll_of_opens optimised_endless piece ⟨tail, start, inner, rfl, spells⟩
  rw [once] at optimised
  simp only [tags, List.length_append]
  rw [opensImage_iff isFront tailFree]
  constructor
  · intro opens
    have closes := length_findAll_of_opens image_endless piece
      ((opens_append_optimised spells noImage).mpr opens)
    omega
  · intro nothing
    have none := findAll_of_not_opens image_endless piece
      (mt (opens_append_optimised spells noImage).mp nothing)
    rw [none] at plain
    simp only [List.length_nil] at plain
    omega

end Tags

end Images

namespace Findings
open Binary64 Images
open Markup (Spells)
variable {f : Findings} {documents : List Document} {pages : List Page}
  {evaluator : Option Document.Evaluator}

def imagesOf (documents : List Document) : List Images :=
  (documents.filter (·.isCovered)).map fun d => Images.ofText d.text

structure ScoresImages (f : Findings) (images : List Images) : Prop where
  made : f.card = .ok f.score
  total : f.score.totalImages = sumOf (·.total) images
  withoutAlt : f.score.imagesWithoutAlt = sumOf (·.withoutAlt) images
  nonneg : 0 ≤ f.score.imagesWithoutAlt
  le : f.score.imagesWithoutAlt ≤ f.score.totalImages
  full : f.score.imagesWithoutAlt = 0 → (f.category .imagesMedia).score = .whole categoryMax
  unclamped : (f.category .imagesMedia).score =
    .whole (Coverage.imagePoints f.score.totalImages f.score.imagesWithoutAlt)

theorem imagesMedia_points (some_page : f.coverage.size ≠ 0) (counts : f.CountsImages) :
    (f.category .imagesMedia).score =
      .whole (Coverage.imagePoints f.coverage.totalImages f.coverage.imagesWithoutAlt) := by
  unfold Coverage.imagePoints
  split_ifs with some_image
  · exact imagesMedia_score some_page counts some_image
  · rw [category_of_pages some_page]
    show clampPoints (Coverage.imagePoints _ _ : Int) = _
    rw [Coverage.imagePoints, if_neg some_image]
    decide +kernel

theorem imagePoints_full {total : Int} : Coverage.imagePoints total 0 = categoryMax := by
  unfold Coverage.imagePoints
  split_ifs with some_image
  · rw [sub_zero, ratio_eq_number some_image.le le_rfl, binaryShare_self some_image,
      shareOfMax_one]
  · rfl

theorem images_of_analyzed (analyzed : documents.mapM (·.analyze evaluator) = .ok pages) :
    (pages.filter (·.isCovered)).map (·.images) = imagesOf documents := by
  rw [imagesOf, ← List.filterMap_eq_map', ← List.filterMap_eq_map', List.filterMap_filter,
    List.filterMap_filter]
  refine filterMap_eq_of_mapM analyzed fun d p analysis => ?_
  have describes := Document.analyze_describes analysis
  rw [describes.isCovered, describes.images]

theorem scoresImages_of_analyzed (analyzed : documents.mapM (·.analyze evaluator) = .ok pages)
    (some_document : documents ≠ []) (sitemap : Sitemap) (robots : Option Robots) :
    ScoresImages ⟨.ofPages pages, sitemap, robots⟩ (imagesOf documents) := by
  have some_page : pages ≠ [] := by
    rintro rfl
    exact some_document (List.forall₂_nil_right_iff.mp (forall₂_of_mapM analyzed))
  have size := Coverage.ofPages_size_ne_zero some_page
  have counts : CountsImages ⟨.ofPages pages, sitemap, robots⟩ :=
    .of_pages (fun p member => by
      obtain ⟨d, -, analysis⟩ := exists_of_mem_mapM analyzed member
      exact (Document.analyze_describes analysis).countsImages) sitemap robots
  have images := images_of_analyzed analyzed
  have points := imagesMedia_points size counts
  have total : (Coverage.ofPages pages).totalImages = sumOf (·.total) (imagesOf documents) := by
    rw [← images, sumOf_map]
    rfl
  have withoutAlt :
      (Coverage.ofPages pages).imagesWithoutAlt = sumOf (·.withoutAlt) (imagesOf documents) := by
    rw [← images, sumOf_map]
    rfl
  have card : (Findings.score ⟨.ofPages pages, sitemap, robots⟩).totalImages =
        (Coverage.ofPages pages).totalImages ∧
      (Findings.score ⟨.ofPages pages, sitemap, robots⟩).imagesWithoutAlt =
        (Coverage.ofPages pages).imagesWithoutAlt := by
    rw [Findings.score, if_neg size]
    exact ⟨rfl, rfl⟩
  constructor
  · exact card_eq_score counts
  · rw [card.1, total]
  · rw [card.2, withoutAlt]
  · exact card.2 ▸ counts.1
  · exact card.1 ▸ card.2 ▸ counts.2
  · intro none
    rw [points, ← card.2, none, imagePoints_full]
  · rw [points, card.1, card.2]

/-- The numbers of images agree on every page; an optimised image tag without a plain one inside
it counts once; and on the card of a project with pages, the images without alternative text are
some of all, with a score that is their share as it is and that is full when there are none. -/
theorem image_counts_agree :
    (∀ text, (Images.ofText text).Agree) ∧
    (∀ text before start inner after : Text,
      Markup.region? text = some (before ++ (start ++ inner ++ .char '>' :: after)) →
      Spells "<nuxtimg".toList start → CodePoint.char '>' ∉ inner → ¬ Opens "<img" inner →
      (OpensImage before →
        (Images.ofText text).total = (tags before).length + 2 + (tags after).length) ∧
      (¬ OpensImage before →
        (Images.ofText text).total = (tags before).length + 1 + (tags after).length)) ∧
    ∀ (documents : List Document) (evaluator : Option Document.Evaluator) (pages : List Page)
      (sitemap : Sitemap) (robots : Option Robots), documents ≠ [] →
      documents.mapM (·.analyze evaluator) = .ok pages →
      ScoresImages ⟨.ofPages pages, sitemap, robots⟩ (imagesOf documents) := by
  refine ⟨agree_ofText, fun text before start inner after found spells free noImage => ?_,
    fun documents evaluator pages sitemap robots some_document analyzed =>
      scoresImages_of_analyzed analyzed some_document sitemap robots⟩
  have counted := length_tags_optimised spells free noImage before after
  rw [Images.ofText, found]
  exact ⟨fun opens => congrArg Int.ofNat (counted.1 opens),
    fun nothing => congrArg Int.ofNat (counted.2 nothing)⟩

def bannerDocument : Document where
  path := "pages/banner.vue"
  name := "banner"
  text := "<template><NuxtImg src='a'></template> useSeoMeta() useHead()"

theorem bannerDocument_counts :
    (Images.ofText bannerDocument.text).total = 1 ∧
    ∃ p, [bannerDocument].mapM (·.analyze none) = .ok [p] ∧
      ScoresImages ⟨.ofPages [p], {}, none⟩ [Images.ofText bannerDocument.text] ∧
      (category ⟨.ofPages [p], {}, none⟩ .imagesMedia).score = .whole 0 := by
  have empty : ¬ OpensImage [] := fun ⟨before, start, rest, same, spells, _⟩ =>
    not_opens_of_unmarked List.not_mem_nil ⟨before, start, rest, same, spells⟩
  have found : Markup.region? bannerDocument.text =
      some ([] ++ (("<NuxtImg" : Text) ++ (" src='a'" : Text) ++ .char '>' :: [])) := by
      decide +kernel
  have read : Markup.afterAnyCase "<nuxtimg".toList ("<NuxtImg" : Text) =
      some (("<NuxtImg" : Text), []) := by decide +kernel
  have check : (bannerDocument.analyze none).map (fun page =>
      (category ⟨.ofPages [page], {}, none⟩ .imagesMedia).score) = .ok (.whole 0) := by
        decide +kernel
  obtain ⟨p, analyzed, points⟩ := Document.exists_page_of_check check
  obtain ⟨-, optimised, scored⟩ := image_counts_agree
  have counted := (optimised _ _ _ _ _ found (Markup.afterAnyCase_eq_some.mp read).2 (by decide)
    (not_opens_of_unmarked (by decide))).2 empty
  exact ⟨counted, p, analyzed, scored _ _ _ {} none (List.cons_ne_nil _ _) analyzed, points⟩

/-- Without pages there is no image without alternative text, and still no point is given. -/
theorem noDocuments_earn_nothing :
    ¬ ∀ (documents : List Document) (evaluator : Option Document.Evaluator) (pages : List Page)
      (sitemap : Sitemap) (robots : Option Robots),
      documents.mapM (·.analyze evaluator) = .ok pages →
      let f : Findings := ⟨.ofPages pages, sitemap, robots⟩
      f.score.imagesWithoutAlt = 0 → (f.category .imagesMedia).score = .whole categoryMax := by
  intro law
  have full := law [] none [] {} none rfl rfl
  exact absurd full (by decide +kernel)

end Findings
end SeoAudit
