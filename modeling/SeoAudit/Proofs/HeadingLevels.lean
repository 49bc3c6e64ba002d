import Mathlib.Data.List.Count
import Mathlib.Data.List.Nodup
import SeoAudit.Markup.Headings
import SeoAudit.Proofs.TagFinds
import SeoAudit.Proofs.WrittenNumbers

/-! What is known of the headings of a page. Top headings and levels are counted by two searches
over the same text. A tag that begins inside another one, before that one is closed, is seen
by the search for top headings only; apart from such tags the two searches agree. -/
namespace SeoAudit

namespace Markup
variable {c : Char} {o : Text}

theorem sameLetter_h : sameLetter 'h' c ↔ c = 'h' ∨ c = 'H' := by
  constructor
  · intro same
    have same : c = 'h' ∨ c.toLower = 'h' := by simpa [sameLetter] using same
    rcases same with here | lowered
    · exact .inl here
    · rcases toLower_cases c with kept | ⟨-, moved⟩
      · exact .inl (kept ▸ lowered)
      · rw [lowered] at moved
        have place : c.toNat = 72 := Nat.add_right_cancel moved.symm
        exact .inr (Char.toNat_inj.mp place)
  · rintro (rfl | rfl) <;> decide

theorem spells_heading {letters : List Char} :
    Spells ('<' :: 'h' :: letters) o ↔
      ∃ start rest : Text, (start = "<h" ∨ start = "<H") ∧ Spells letters rest ∧
        o = start ++ rest := by
  simp only [spells_cons_iff, sameLetter_mark (by decide : '<'.toNat < 97), sameLetter_h]
  constructor
  · rintro ⟨_, _, rfl, ⟨c, rest, rfl | rfl, spells, rfl⟩, rfl⟩
    · exact ⟨_, rest, .inl rfl, spells, rfl⟩
    · exact ⟨_, rest, .inr rfl, spells, rfl⟩
  · rintro ⟨_, rest, rfl | rfl, spells, rfl⟩
    · exact ⟨_, _, rfl, ⟨_, rest, .inl rfl, spells, rfl⟩, rfl⟩
    · exact ⟨_, _, rfl, ⟨_, rest, .inr rfl, spells, rfl⟩, rfl⟩

end Markup

namespace Headings
open Markup (tag)
open Text (Successive EndsOnce Recognises)

def IsHeading (m : Text) (level : Nat) : Prop :=
  ∃ start rest : Text, (start = "<h" ∨ start = "<H") ∧ 1 ≤ level ∧ level ≤ 6 ∧
    EndsOnce rest ∧
    m = start ++ .char (Nat.digitChar level) :: rest

def HoldsTop (m : Text) : Prop :=
  ∃ before start after : Text, before ≠ [] ∧ (start = "<h1" ∨ start = "<H1") ∧
    m = before ++ (start ++ after)

variable {m t w : Text} {d : CodePoint} {level other : Nat}

theorem levelOf_eq_some :
    levelOf d = some level ↔ 1 ≤ level ∧ level ≤ 6 ∧ d = .char (Nat.digitChar level) := by
  constructor
  · intro read
    cases d with
    | half => cases read
    | char c =>
      rw [levelOf] at read
      split_ifs at read with inside
      obtain ⟨low, high⟩ := (Bool.and_eq_true _ _ ▸ inside : _ ∧ _)
      have low : 49 ≤ c.toNat := UInt32.le_iff_toNat_le.mp (of_decide_eq_true low)
      have high : c.toNat ≤ 54 := UInt32.le_iff_toNat_le.mp (of_decide_eq_true high)
      obtain rfl := Option.some.inj read
      refine ⟨by omega, by omega, congrArg CodePoint.char (Char.toNat_inj.mp ?_)⟩
      rw [Nat.toNat_digitChar_of_lt_ten (by omega)]
      omega
  · rintro ⟨low, high, rfl⟩
    have each :
        ∀ level < 7, 1 ≤ level → levelOf (.char (Nat.digitChar level)) = some level := by
      decide
    exact each level (Nat.lt_succ_of_le high) low

theorem heading_recognises : Recognises IsHeading heading where
  nonempty := by
    rintro m level ⟨start, rest, -, -, -, -, rfl⟩
    simp
  here s level u := by
    rw [heading]
    constructor
    · intro read
      obtain ⟨⟨o, behind⟩, opened, inside⟩ := Option.bind_eq_some_iff.mp read
      obtain ⟨rfl, spells⟩ := Markup.afterAnyCase_eq_some.mp opened
      obtain ⟨start, _, cased, ⟨⟩, rfl⟩ := Markup.spells_heading.mp spells
      cases behind with
      | nil => cases inside
      | cons d behind =>
        obtain ⟨level', digit, inside⟩ := Option.bind_eq_some_iff.mp inside
        obtain ⟨⟨rest, u'⟩, ended, made⟩ := Option.bind_eq_some_iff.mp inside
        cases made
        obtain ⟨rfl, closed⟩ := Markup.tagRest_eq_some.mp ended
        obtain ⟨low, high, rfl⟩ := levelOf_eq_some.mp digit
        exact ⟨_, by simp, start, rest, cased, low, high, closed, rfl⟩
    · rintro ⟨m, rfl, start, rest, cased, low, high, closed, rfl⟩
      have opened :
          Markup.afterAnyCase ['<', 'h'] (start ++ .char (Nat.digitChar level) :: rest ++ u) =
            some (start, .char (Nat.digitChar level) :: (rest ++ u)) :=
        Markup.afterAnyCase_eq_some.mpr
          ⟨by simp, Markup.spells_heading.mpr ⟨start, [], cased, .nil,
            (List.append_nil _).symm⟩⟩
      have digit := levelOf_eq_some.mpr ⟨low, high, rfl⟩
      have ended := Markup.tagRest_of_endsOnce closed u
      simp only [opened, digit, ended, Option.bind_eq_bind, Option.bind_some]
      rfl

theorem isTag_top : Markup.IsTag "<h1" m ↔ IsHeading m 1 := by
  have letters : "<h1".toList = ['<', 'h', '1'] := rfl
  have one {c : Char} : Markup.sameLetter '1' c ↔ c = '1' := Markup.sameLetter_mark (by decide)
  rw [Markup.IsTag, letters]
  constructor
  · rintro ⟨o, rest, rfl, spells, closed⟩
    obtain ⟨start, last, cased, spelt, rfl⟩ := Markup.spells_heading.mp spells
    obtain ⟨c, _, same, ⟨⟩, rfl⟩ := Markup.spells_cons_iff.mp spelt
    obtain rfl := one.mp same
    exact ⟨start, rest, cased, le_rfl, by decide, closed, List.append_assoc ..⟩
  · rintro ⟨start, rest, cased, -, -, closed, rfl⟩
    have last : Markup.Spells ['1'] [.char '1'] :=
      Markup.spells_cons_iff.mpr ⟨'1', [], one.mpr rfl, .nil, rfl⟩
    exact ⟨start ++ [CodePoint.char '1'], rest, by rw [List.append_assoc]; rfl,
      Markup.spells_heading.mpr ⟨start, _, cased, last, rfl⟩, closed⟩

theorem top_recognises : Recognises (fun m a => a = m ∧ IsHeading m 1) (tag "<h1") := by
  have tags := Markup.tag_recognises "<h1"
  simp only [isTag_top] at tags
  exact tags

theorem start_not_mem {start : Text} (cased : start = "<h" ∨ start = "<H") :
    .char '>' ∉ start := by
  obtain rfl | rfl := cased <;> decide

theorem endsOnce_of_isHeading (isHeading : IsHeading m level) : EndsOnce m := by
  obtain ⟨start, rest, cased, low, high, ⟨inner, rfl, noEnd⟩, rfl⟩ := isHeading
  refine ⟨start ++ .char (Nat.digitChar level) :: inner, by simp, ?_⟩
  have digit : ∀ level < 7, Nat.digitChar level ≠ '>' := by decide
  simp [start_not_mem cased, noEnd, (digit level (Nat.lt_succ_of_le high)).symm]

theorem level_unique (isHeading : IsHeading m level) (isHeading' : IsHeading t other) {u v : Text}
    (same : m ++ u = t ++ v) : level = other := by
  have here := (heading_recognises.here (m ++ u) level u).mpr ⟨m, rfl, isHeading⟩
  rw [(heading_recognises.here (m ++ u) other v).mpr ⟨t, same, isHeading'⟩] at here
  cases here
  rfl

theorem findAll_top_of_not_holds (isHeading : IsHeading m level) (lower : level ≠ 1)
    (nothing : ¬ HoldsTop m) : Text.findAll (tag "<h1") m = [] := by
  refine top_recognises.findAll_eq_nil fun t _ ⟨_, top⟩ ⟨before, after, same⟩ => ?_
  cases before with
  | nil => exact lower (level_unique isHeading top (by rw [List.append_nil, ← same]; rfl))
  | cons c before =>
    obtain ⟨start, rest, cased, -, -, -, rfl⟩ := top
    refine nothing ⟨c :: before, start ++ [.char '1'], rest ++ after,
      List.cons_ne_nil _ _, ?_, ?_⟩
    · exact cased.imp (by rintro rfl; rfl) (by rintro rfl; rfl)
    · rw [← same]
      simp

/-- Every heading of level one is found as a top heading, and a top heading that is not is one
that begins inside another heading. -/
theorem count_one_tops {tags : List Text} {levels : List Nat}
    (scan : Successive (fun m => ∃ level, IsHeading m level) w tags)
    (levelled : List.Forall₂ IsHeading tags levels) :
    levels.count 1 ≤ (Text.findAll (tag "<h1") w).length ∧
      ((∀ m ∈ tags, ¬ HoldsTop m) →
        levels.count 1 = (Text.findAll (tag "<h1") w).length) := by
  have closed : ∀ (m a : Text), a = m ∧ IsHeading m 1 → EndsOnce m := fun m _ top =>
    endsOnce_of_isHeading top.2
  induction scan generalizing levels with
  | done nowhere =>
    cases levelled
    rw [top_recognises.findAll_eq_nil fun m _ top => nowhere m ⟨1, top.2⟩]
    exact ⟨le_rfl, fun _ => rfl⟩
  | @next before m rest tags leftmost found others ih =>
    cases levelled with
    | @cons _ level _ levels isHeading levelled =>
      obtain ⟨below, alike⟩ := ih levelled
      -- In front of the heading there is no top heading, as it would have been found before.
      have skips : Text.Skips (tag "<h1") before (m ++ rest) :=
        top_recognises.skips fun n inside t _ top => leftmost n inside t ⟨1, top.2⟩
      obtain ⟨inner, rfl, noEnd⟩ := endsOnce_of_isHeading isHeading
      rw [skips.findAll_append, List.append_assoc, List.singleton_append]
      by_cases one : level = 1
      · subst one
        rw [Text.findAll_here top_recognises closed noEnd ⟨rfl, isHeading⟩,
          List.count_cons_self, List.length_cons]
        exact ⟨Nat.succ_le_succ below, fun nothing =>
          congrArg Nat.succ (alike (List.forall_mem_cons.mp nothing).2)⟩
      · rw [Text.findAll_piece top_recognises closed noEnd, List.length_append,
          List.count_cons_of_ne one]
        refine ⟨Nat.le_add_left_of_le below, fun nothing => ?_⟩
        obtain ⟨here, later⟩ := List.forall_mem_cons.mp nothing
        rw [findAll_top_of_not_holds isHeading one here, alike later]
        exact (Nat.zero_add _).symm

section Issues
variable {topCount n : Nat} {levels : List Nat}

theorem skips_iff_exists : skips levels ↔
    ∃ i a b, levels[i]? = some a ∧ levels[i + 1]? = some b ∧ a + 1 < b := by
  fun_induction skips levels with
  | case1 a b rest ih =>
    rw [Bool.or_eq_true, decide_eq_true_iff, ih]
    constructor
    · rintro (here | ⟨i, a, b, before, behind, jump⟩)
      · exact ⟨0, a, b, rfl, rfl, here⟩
      · exact ⟨i + 1, a, b, before, behind, jump⟩
    · rintro ⟨i, a', b', before, behind, jump⟩
      cases i with
      | zero =>
        cases before
        cases behind
        exact .inl jump
      | succ i => exact .inr ⟨i, a', b', before, behind, jump⟩
  | case2 levels short =>
    refine iff_of_false Bool.false_ne_true ?_
    rintro ⟨i, a, b, -, behind, -⟩
    match levels with
    | [] => cases behind
    | [_] => cases behind
    | a :: b :: rest => exact short a b rest rfl

theorem severalTop_message : (HeadingIssue.severalTop n).message =
    Text.ofString "Multiple H1 tags found (" ++
      (Text.ofString (toString n) ++ Text.ofString "), should have only 1") := by
  show Text.ofString ("Multiple H1 tags found (" ++ toString n ++ "), should have only 1") = _
  rw [Text.ofString_append, Text.ofString_append, List.append_assoc]

theorem head?_severalTop : (HeadingIssue.severalTop n).message.head? = some (.char 'M') := by
  rw [severalTop_message]
  rfl

theorem message_injective : Function.Injective HeadingIssue.message := by
  intro a b same
  have letters := congrArg List.head? same
  cases a with
  | noTop =>
    cases b with
    | noTop => rfl
    | severalTop => exact absurd (letters.trans head?_severalTop) (by decide)
    | skippedLevel => exact absurd letters (by decide)
  | severalTop m =>
    cases b with
    | noTop => exact absurd (letters.symm.trans head?_severalTop) (by decide)
    | severalTop n =>
      rw [severalTop_message, severalTop_message] at same
      have numbers := List.append_cancel_right (List.append_cancel_left same)
      rw [Text.ofString_toString, Text.ofString_toString] at numbers
      exact congrArg HeadingIssue.severalTop (Text.decimal_inj numbers)
    | skippedLevel => exact absurd (letters.symm.trans head?_severalTop) (by decide)
  | skippedLevel =>
    cases b with
    | noTop => exact absurd letters (by decide)
    | severalTop => exact absurd (letters.trans head?_severalTop) (by decide)
    | skippedLevel => rfl

theorem judge_eq (topCount : Nat) (levels : List Nat) : judge topCount levels =
    (if topCount = 0 then [.noTop] else if 1 < topCount then [.severalTop topCount] else []) ++
      (if skips levels then [.skippedLevel] else []) := by
  rcases topCount with _ | _ | n <;> rfl

theorem mem_judge_noTop : .noTop ∈ judge topCount levels ↔ topCount = 0 := by
  rw [judge_eq]
  split_ifs <;> simp_all

theorem mem_judge_severalTop :
    .severalTop n ∈ judge topCount levels ↔ 1 < topCount ∧ topCount = n := by
  by_cases several : 1 < topCount
  · rw [judge_eq, if_neg (Nat.ne_zero_of_lt several), if_pos several]
    split_ifs <;> simp [several, eq_comm]
  · rw [judge_eq, if_neg several]
    split_ifs <;> simp [several]

theorem mem_judge_skippedLevel : .skippedLevel ∈ judge topCount levels ↔ skips levels := by
  rw [judge_eq]
  split_ifs <;> simp_all

theorem nodup_judge : (judge topCount levels).Nodup := by
  rw [judge_eq]
  split_ifs <;> simp

theorem getLast?_judge (skipped : skips levels) :
    (judge topCount levels).getLast? = some .skippedLevel := by
  rw [judge_eq, if_pos skipped, List.getLast?_concat]

end Issues

/-- Facts on headings that agree with each other and with the heading tags of a region. -/
structure Agree (region : Text) (tags : List Text) (h : Headings) : Prop where
  scan : Successive (fun m => ∃ level, IsHeading m level) region tags
  levelled : List.Forall₂ (fun m (level : Int) => ∃ n : Nat, level = n ∧
    IsHeading m n) tags h.levels
  tops_le : h.levels.count 1 ≤ h.topCount
  tops_eq : (∀ m ∈ tags, ¬ HoldsTop m) → h.levels.count 1 = h.topCount
  noTop : HeadingIssue.noTop.message ∈ h.issues ↔ h.topCount = 0
  severalTop (n : Nat) :
    (HeadingIssue.severalTop n).message ∈ h.issues ↔ 1 < h.topCount ∧ h.topCount = n
  skipped : HeadingIssue.skippedLevel.message ∈ h.issues ↔
    ∃ (i : Nat) (a b : Int), h.levels[i]? = some a ∧ h.levels[i + 1]? = some b ∧ a + 1 < b
  last : HeadingIssue.skippedLevel.message ∈ h.issues →
    h.issues.getLast? = some HeadingIssue.skippedLevel.message
  once : h.issues.Nodup
  told : ∀ issue ∈ h.issues, ∃ i : HeadingIssue, issue = i.message

theorem agree_ofRegion (region : Text) : ∃ tags, Agree region tags (ofRegion region) := by
  obtain ⟨tags, scan, levelled⟩ := heading_recognises.exists_successive region
  obtain ⟨below, alike⟩ := count_one_tops scan levelled
  have member (issue : HeadingIssue) : issue.message ∈ (ofRegion region).issues ↔
      issue ∈ judge (Text.findAll (tag "<h1") region).length (Text.findAll heading region) :=
    List.mem_map_of_injective message_injective
  have ones : (ofRegion region).levels.count 1 = (Text.findAll heading region).count 1 :=
    List.count_map_of_injective _ Int.ofNat (fun _ _ => Int.ofNat.inj) 1
  exact ⟨tags, {
    scan
    levelled := List.forall₂_map_right_iff.mpr
      (levelled.imp fun m n isHeading => ⟨n, rfl, isHeading⟩)
    tops_le := by
      rw [ones]
      exact Int.ofNat_le.mpr below
    tops_eq := fun nothing => by
      rw [ones, alike nothing]
      rfl
    noTop := by
      rw [member, mem_judge_noTop]
      exact Int.natCast_eq_zero.symm
    severalTop := fun n => by
      rw [member, mem_judge_severalTop]
      exact and_congr Int.ofNat_lt.symm Int.ofNat_inj.symm
    skipped := by
      rw [member, mem_judge_skippedLevel, skips_iff_exists]
      simp only [ofRegion, List.getElem?_map, Option.map_eq_some_iff]
      constructor
      · rintro ⟨i, a, b, before, behind, jump⟩
        exact ⟨i, a, b, ⟨a, before, rfl⟩, ⟨b, behind, rfl⟩, Int.ofNat_lt.mpr jump⟩
      · rintro ⟨i, _, _, ⟨a, before, rfl⟩, ⟨b, behind, rfl⟩, jump⟩
        exact ⟨i, a, b, before, behind, Int.ofNat_lt.mp jump⟩
    last := fun skipped => by
      rw [member, mem_judge_skippedLevel] at skipped
      exact (List.getLast?_map ..).trans (congrArg (Option.map _) (getLast?_judge skipped))
    once := List.Nodup.map message_injective nodup_judge
    told := fun issue listed => by
      obtain ⟨i, -, rfl⟩ := List.mem_map.mp listed
      exact ⟨i, rfl⟩ }⟩

/-- For every page with a template region, the number of top headings, the levels and the issues
agree. -/
theorem heading_facts_agree {text region : Text} (found : Markup.region? text = some region) :
    ∃ tags, Agree region tags (ofText text) := by
  rw [ofText, found]
  exact agree_ofRegion region

def crossing : Text := "<template><h2 <h1><H1></template>"

theorem crossing_facts_agree :
    Markup.region? crossing = some "<h2 <h1><H1>" ∧
    (∃ tags, Agree "<h2 <h1><H1>" tags (ofText crossing)) ∧
    (ofText crossing).levels = [2, 1] ∧ (ofText crossing).topCount = 2 := by
  have found : Markup.region? crossing = some "<h2 <h1><H1>" := by decide +kernel
  exact ⟨found, heading_facts_agree found, by decide +kernel, by decide +kernel⟩

end Headings
end SeoAudit
