import SeoAudit.Markup.Region

/-! Headings of a template region: how many top headings there are, the levels in
order, and whether a level is skipped on the way down. -/
namespace SeoAudit

inductive HeadingIssue where
  | noTop
  | severalTop (count : Nat)
  | skippedLevel
deriving DecidableEq, Repr

def HeadingIssue.message : HeadingIssue → Text
  | .noTop => "No H1 tag found"
  | .severalTop n => s!"Multiple H1 tags found ({n}), should have only 1"
  | .skippedLevel => "Heading hierarchy broken (skipped levels)"

/-- What is known of the headings of a page. A record may also be given from outside, so
the numbers are any integers. -/
structure Headings where
  topCount : Int := 0
  levels : List Int := []
  issues : List Text := []
deriving DecidableEq, Repr, Inhabited

namespace Headings

def levelOf : CodePoint → Option Nat
  | .char c => if '1' ≤ c && c ≤ '6' then some (c.toNat - 48) else none
  | .half _ => none

def heading : Recogniser Nat := fun s => do
  let (_, s) ← Markup.afterAnyCase ['<', 'h'] s
  let d :: s := s | none
  let level ← levelOf d
  let (_, s) ← Markup.tagRest s
  pure (level, s)

def skips : List Nat → Bool
  | a :: b :: rest => decide (a + 1 < b) || skips (b :: rest)
  | _ => false

def judge (topCount : Nat) (levels : List Nat) : List HeadingIssue :=
  (match topCount with
    | 0 => [.noTop]
    | 1 => []
    | n => [.severalTop n]) ++
  (if skips levels then [.skippedLevel] else [])

def ofRegion (region : Text) : Headings :=
  let topCount := (Text.findAll (Markup.tag "<h1") region).length
  let levels := Text.findAll heading region
  { topCount, levels := levels.map Int.ofNat,
    issues := (judge topCount levels).map HeadingIssue.message }

def ofText (text : Text) : Headings := ((Markup.region? text).map ofRegion).getD {}

end Headings
end SeoAudit
