import SeoAudit.Markup.Region
import SeoAudit.Number.Basic

/-! Image tags of a template region: how many carry alternative text and how many
are loaded lazily. Plain image tags are taken before optimised ones. -/
namespace SeoAudit

inductive ImageIssue where
  | withoutAlt (count : Nat) (coverage : Int)
  | eagerLoading
deriving DecidableEq, Repr

def ImageIssue.message : ImageIssue → Text
  | .withoutAlt n coverage => s!"{n} images missing alt text ({coverage}% coverage)"
  | .eagerLoading => "Consider implementing lazy loading for below-the-fold images"

structure Images where
  total : Int := 0
  withAlt : Int := 0
  withoutAlt : Int := 0
  lazyCount : Int := 0
  issues : List Text := []
deriving DecidableEq, Repr, Inhabited

namespace Images

def hasAlt (tag : Text) : Bool :=
  Text.occursIn "alt=" tag && !Text.occursIn "alt=\"\"" tag &&
    !Text.occursIn "alt=''" tag

def isLazy (tag : Text) : Bool := Text.anyOf ["loading=\"lazy\"", "lazy="] tag

def tags (region : Text) : List Text :=
  Text.findAll (Markup.tag "<img") region ++ Text.findAll (Markup.tag "<nuxtimg") region

def altCoverage (withAlt total : Nat) (divide : Int → Int → Binary64 := ratio) : Int :=
  (Binary64.mul (divide withAlt total) (.number 100)).rounded

def judge (total withAlt withoutAlt lazyCount : Nat)
    (divide : Int → Int → Binary64 := ratio) : List ImageIssue :=
  (if 0 < withoutAlt then [.withoutAlt withoutAlt (altCoverage withAlt total divide)] else []) ++
  (if 2 < total ∧ lazyCount < total - 2 then [.eagerLoading] else [])

def ofTags (tags : List Text) (divide : Int → Int → Binary64 := ratio) : Images :=
  let total := tags.length
  let withAlt := tags.countP hasAlt
  let withoutAlt := tags.countP (!hasAlt ·)
  let lazyCount := tags.countP isLazy
  { total, withAlt, withoutAlt, lazyCount,
    issues := (judge total withAlt withoutAlt lazyCount divide).map ImageIssue.message }

def ofText (text : Text) : Images :=
  ((Markup.region? text).map fun region => ofTags (tags region)).getD {}

end Images
end SeoAudit
