import SeoAudit.Proofs.ScriptArguments

/-! The grammar of calls, said without searching: an opening, any text, a closing. The block
of a page's first call is the text between the leftmost opening with a closing behind it
and the first closing. Pages without a call are those in which none starts, and pages with one
block have one set of parameters. -/
namespace SeoAudit
namespace Parameters
open Text NamedField

def IsOpening (s : Text) : Prop :=
  ∃ v w : Text, AllBlank v ∧ AllBlank w ∧ s = generatorName ++ v ++ "(" ++ w ++ "\x7b"

def IsClosing (s : Text) : Prop := ∃ w : Text, AllBlank w ∧ s = "\x7d" ++ w ++ ")"

theorem isOpening_unspaced : IsOpening (generatorName ++ "(\x7b") :=
  ⟨[], [], by decide, by decide, rfl⟩

theorem isClosing_unspaced : IsClosing "\x7d)" := ⟨[], by decide, rfl⟩

/-- A call starts here: an opening with a closing anywhere behind it. -/
def StartsCall (s : Text) : Prop :=
  ∃ opening block closing after, IsOpening opening ∧ IsClosing closing ∧
    s = opening ++ (block ++ (closing ++ after))

structure FirstCall (page : Text) where
  before : Text
  opening : Text
  block : Text
  closing : Text
  after : Text
  isOpening : IsOpening opening
  isClosing : IsClosing closing
  page_eq : page = before ++ (opening ++ (block ++ (closing ++ after)))
  leftmost : ∀ n < before.length, ¬ StartsCall (page.drop n)
  shortest : ∀ n < block.length, ∀ w, IsClosing w →
    ¬ w <+: (block ++ (closing ++ after)).drop n

def IsCallBlock (page block : Text) : Prop := ∃ c : FirstCall page, c.block = block

variable {s page block after : Text}

theorem callEnd_eq_some_iff : callEnd s = some after ↔ ∃ w, IsClosing w ∧ s = w ++ after := by
  have visible : ¬ CodePoint.isBlank ')' := by decide
  simp only [callEnd, Option.bind_eq_bind, Option.bind_eq_some_iff, behind_eq_some_iff,
    behindBlanks_eq_some_iff visible]
  constructor
  · rintro ⟨t, rfl, w, blank, rfl⟩
    exact ⟨_, ⟨w, blank, rfl⟩, by simp [ofString, ofChars]⟩
  · rintro ⟨_, ⟨w, blank, rfl⟩, rfl⟩
    exact ⟨w ++ .char ')' :: after, by simp [ofString, ofChars], w, blank, rfl⟩

theorem callEnd_eq_none_iff : callEnd s = none ↔ ∀ w, IsClosing w → ¬ w <+: s := by
  rw [Option.eq_none_iff_forall_ne_some]
  constructor
  · rintro none w closing ⟨u, rfl⟩
    exact none u (callEnd_eq_some_iff.mpr ⟨w, closing, rfl⟩)
  · intro nothing u found
    obtain ⟨w, closing, rfl⟩ := callEnd_eq_some_iff.mp found
    exact nothing w closing ⟨u, rfl⟩

def behindOpening (s : Text) : Option Text :=
  after? generatorName s >>= behindBlanks '(' >>= behindBlanks '\x7b'

theorem behindOpening_eq_some_iff :
    behindOpening s = some after ↔ ∃ w, IsOpening w ∧ s = w ++ after := by
  have visible : ¬ CodePoint.isBlank '(' ∧ ¬ CodePoint.isBlank '\x7b' := by decide
  simp only [behindOpening, Option.bind_eq_bind, Option.bind_eq_some_iff, after?_eq_some,
    behindBlanks_eq_some_iff visible.1, behindBlanks_eq_some_iff visible.2]
  constructor
  · rintro ⟨_, ⟨_, rfl, v, blank, rfl⟩, w, blank', rfl⟩
    exact ⟨_, ⟨v, w, blank, blank', rfl⟩, by simp [ofString, ofChars]⟩
  · rintro ⟨_, ⟨v, w, blank, blank', rfl⟩, rfl⟩
    refine ⟨w ++ .char '\x7b' :: after,
      ⟨v ++ .char '(' :: (w ++ .char '\x7b' :: after), ?_, ?_⟩, ?_⟩
    · simp [ofString, ofChars]
    · exact ⟨v, blank, rfl⟩
    · exact ⟨w, blank', rfl⟩

theorem call_eq (s : Text) : call s = behindOpening s >>= upTo callEnd := by
  simp only [call, behindOpening, bind_assoc]

theorem call_eq_none_iff : call s = none ↔ ¬ StartsCall s := by
  rw [call_eq, Option.bind_eq_bind, Option.bind_eq_none_iff]
  constructor
  · rintro nothing ⟨opening, block, closing, after, opens, closes, rfl⟩
    have opened : behindOpening (opening ++ (block ++ (closing ++ after))) = some _ :=
      behindOpening_eq_some_iff.mpr ⟨opening, opens, rfl⟩
    have unclosed := upTo_eq_none_iff.mp (nothing _ opened) block.length
    rw [List.drop_left, callEnd_eq_none_iff] at unclosed
    exact unclosed closing closes (List.prefix_append closing after)
  · intro starts rest opened
    obtain ⟨opening, opens, rfl⟩ := behindOpening_eq_some_iff.mp opened
    refine upTo_eq_none_iff.mpr fun n =>
      callEnd_eq_none_iff.mpr fun closing closes ⟨after, split⟩ => ?_
    exact starts ⟨opening, rest.take n, closing, after, opens, closes, by
      rw [split, List.take_append_drop]⟩

theorem callBlock?_eq_none_iff : callBlock? page = none ↔ ∀ n, ¬ StartsCall (page.drop n) := by
  simp only [callBlock?, findFirst, Option.map_eq_none_iff, upTo_eq_none_iff, call_eq_none_iff]

namespace FirstCall

def start (c : FirstCall page) : Nat := c.before.length + c.opening.length

theorem callBlock?_eq (c : FirstCall page) : callBlock? page = some c.block := by
  obtain ⟨before, opening, block, closing, after, opens, closes, rfl, leftmost, shortest⟩ := c
  have ends : upTo callEnd (block ++ (closing ++ after)) = some (block, after) :=
    Skips.upTo_eq (skips_iff.mpr fun n inside => callEnd_eq_none_iff.mpr (shortest n inside))
      (callEnd_eq_some_iff.mpr ⟨closing, closes, rfl⟩)
  have here : call (opening ++ (block ++ (closing ++ after))) = some (block, after) := by
    rw [call_eq, behindOpening_eq_some_iff.mpr ⟨opening, opens, rfl⟩]
    exact ends
  have skips : Skips call before (opening ++ (block ++ (closing ++ after))) :=
    skips_iff.mpr fun n inside => call_eq_none_iff.mpr (leftmost n inside)
  rw [callBlock?, skips.findFirst_append, findFirst_of_some here]
  rfl

end FirstCall

theorem exists_firstCall (found : callBlock? page = some block) :
    ∃ c : FirstCall page, c.block = block := by
  obtain ⟨⟨_, after⟩, first, rfl⟩ := Option.map_eq_some_iff.mp found
  obtain ⟨⟨before, _⟩, place, rfl⟩ := Option.map_eq_some_iff.mp first
  obtain ⟨s, rfl, skips, here⟩ := upTo_eq_some_iff.mp place
  rw [call_eq, Option.bind_eq_bind, Option.bind_eq_some_iff] at here
  obtain ⟨rest, opened, ends⟩ := here
  obtain ⟨opening, opens, rfl⟩ := behindOpening_eq_some_iff.mp opened
  obtain ⟨u, rfl, inside, closed⟩ := upTo_eq_some_iff.mp ends
  obtain ⟨closing, closes, rfl⟩ := callEnd_eq_some_iff.mp closed
  exact ⟨{
    before, opening, closing, after
    block := _
    isOpening := opens
    isClosing := closes
    page_eq := rfl
    leftmost := fun n bound => call_eq_none_iff.mp (skips_iff.mp skips n bound)
    shortest := fun n bound => callEnd_eq_none_iff.mp (skips_iff.mp inside n bound) }, rfl⟩

theorem isCallBlock_iff : IsCallBlock page block ↔ callBlock? page = some block := by
  constructor
  · rintro ⟨c, rfl⟩
    exact c.callBlock?_eq
  · exact exists_firstCall

/-- A page has no parameters exactly when no call starts in it. Otherwise its first call has one
block, every page with this block has the same parameters, and their collections, none of
them empty, and their flags have known names, each once and in the order in which they are
looked for. -/
theorem calls_are_recognized (page : Text) :
    (ofText? page = none ↔ ∀ n, ¬ StartsCall (page.drop n)) ∧
    ∀ p, ofText? page = some p →
      (∃! block, IsCallBlock page block) ∧
      (∀ block other, IsCallBlock page block → IsCallBlock other block →
        ofText? other = some p) ∧
      p.Ordered ∧ (Table.keys p.collections).Nodup ∧ p.flags.Nodup := by
  refine ⟨Option.map_eq_none_iff.trans callBlock?_eq_none_iff, fun p found => ?_⟩
  obtain ⟨block, first, rfl⟩ := Option.map_eq_some_iff.mp found
  have ordered := ordered_ofBlock block
  have one (other : Text) (isBlock : IsCallBlock page other) : other = block :=
    Option.some.inj ((isCallBlock_iff.mp isBlock).symm.trans first)
  refine ⟨⟨block, isCallBlock_iff.mpr first, one⟩, ?_, ordered, ?_, ?_⟩
  · intro same other isBlock isOther
    rw [one same isBlock, isCallBlock_iff] at isOther
    rw [ofText?, isOther, Option.map_some]
  · exact ordered.collections.nodup (by decide)
  · exact ordered.flags.nodup (by decide)

def crowdedBlock : Text := " title: 'Oak', note: generateSEO(\x7b a: 1 \x7d, faqs: [\x7b\x7d, x] "

def crowdedPage : Text :=
  "import generateSEO; generateSEO (x); useHead(generateSEO\n(\t\x7b" ++ crowdedBlock ++
    "\x7d ) generateSEO(\x7b\x7d)"

theorem crowdedPage_is_recognized :
    let p : Parameters := { title := some "Oak", collections := [("faqs", 1)] }
    let other := generatorName ++ "(\x7b" ++ crowdedBlock ++ "\x7d)"
    ofText? crowdedPage = some p ∧ IsCallBlock crowdedPage crowdedBlock ∧
      IsCallBlock other crowdedBlock ∧ ofText? other = some p ∧ p.Ordered := by
  intro p other
  have found : ofText? crowdedPage = some p := by decide +kernel
  have block : IsCallBlock crowdedPage crowdedBlock := isCallBlock_iff.mpr (by decide +kernel)
  have same : IsCallBlock other crowdedBlock := isCallBlock_iff.mpr (by decide +kernel)
  have law := (calls_are_recognized crowdedPage).2 p found
  exact ⟨found, block, same, law.2.1 _ _ block same, law.2.2.1⟩

end Parameters
end SeoAudit
