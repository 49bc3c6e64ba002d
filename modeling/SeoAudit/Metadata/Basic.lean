import SeoAudit.Schema

/-! The metadata of a page and its judgement. A title should have 30 to 60
characters and a description 120 to 160; four Open Graph tags, four Twitter tags
and a canonical link should be there. `judge` lists every shortfall in that order. -/
namespace SeoAudit

inductive Band where
  | short | optimal | long
deriving DecidableEq, Repr, Inhabited

namespace Band

def text : Band → Text
  | short => "short"
  | optimal => "optimal"
  | long => "long"

end Band

structure LengthRule where
  missing : String
  short : String
  long : String
  advice : String
  least : Nat
  greatest : Nat
deriving DecidableEq, Repr

namespace LengthRule

def title : LengthRule where
  missing := "Missing page title"
  short := "Title too short ("
  long := "Title too long ("
  advice := " chars, recommended: 50-60)"
  least := 30
  greatest := 60

def description : LengthRule where
  missing := "Missing meta description"
  short := "Meta description too short ("
  long := "Meta description too long ("
  advice := " chars, recommended: 120-160)"
  least := 120
  greatest := 160

def bandOf (r : LengthRule) (length : Nat) : Band :=
  if length < r.least then .short else if r.greatest < length then .long else .optimal

def message (r : LengthRule) (start : String) (length : Int) : Text :=
  s!"{start}{length}{r.advice}"

end LengthRule

def Band.ofTitle (length : Nat) : Band := LengthRule.title.bandOf length

def Band.ofDescription (length : Nat) : Band := LengthRule.description.bandOf length

inductive Source where
  | static | dynamic
deriving DecidableEq, Repr, Inhabited

def Source.text : Source → Text
  | .static => "static"
  | .dynamic => "dynamic"

inductive MetadataIssue where
  | missing (rule : LengthRule)
  | short (rule : LengthRule) (length : Nat)
  | long (rule : LengthRule) (length : Nat)
  | noOpenGraph (tags : List Text)
  | noTwitter (tags : List Text)
  | noCanonical
deriving DecidableEq, Repr

def MetadataIssue.message : MetadataIssue → Text
  | missing rule => rule.missing
  | short rule n => rule.message rule.short n
  | long rule n => rule.message rule.long n
  | noOpenGraph tags => "Missing Open Graph tags: " ++ Text.joined ", " tags
  | noTwitter tags => "Missing Twitter Card tags: " ++ Text.joined ", " tags
  | noCanonical => "Missing canonical URL"

/-- The metadata record of a page. One may also be given from outside, so the lengths
are any integers, and the bands and the source any words. -/
structure Metadata where
  title : Option Text := none
  titleLength : Int := 0
  titleBand : Option Text := none
  description : Option Text := none
  descriptionLength : Int := 0
  descriptionBand : Option Text := none
  ogTags : Table Bool := []
  twitterTags : Table Bool := []
  canonical : Bool := false
  schemas : List Schema := []
  image : Option Text := none
  ogImage : Option Text := none
  issues : List Text := []
  source : Text := Source.static.text
deriving DecidableEq, Repr, Inhabited

namespace Metadata

def requiredOgTags : List Text := ["title", "description", "image", "url"]

def requiredTwitterTags : List Text := ["card", "title", "description", "image"]

def absent (required : List Text) (tags : Table Bool) : List Text :=
  required.filter fun tag => !(Table.get? tag tags).getD false

def judgeLength (rule : LengthRule) : Option Text → List MetadataIssue
  | none => [.missing rule]
  | some t =>
    match rule.bandOf t.length with
    | .short => [.short rule t.length]
    | .long => [.long rule t.length]
    | .optimal => []

def judgeTags (required : List Text) (issue : List Text → MetadataIssue)
    (tags : Table Bool) : List MetadataIssue :=
  match absent required tags with
  | [] => []
  | missing => [issue missing]

def judgeCanonical (canonical : Bool) : List MetadataIssue :=
  if canonical then [] else [.noCanonical]

structure Facts where
  title : Option Text
  description : Option Text
  ogTags : Table Bool
  twitterTags : Table Bool
  canonical : Bool
  ogImage : Option Text := none

def judge (f : Facts) : List MetadataIssue :=
  judgeLength .title f.title ++ judgeLength .description f.description ++
  judgeTags requiredOgTags .noOpenGraph f.ogTags ++
  judgeTags requiredTwitterTags .noTwitter f.twitterTags ++ judgeCanonical f.canonical

/-- The record of judged facts, without schemas and page image. -/
def ofFacts (source : Source) (f : Facts) : Metadata where
  title := f.title
  titleLength := f.title.elim 0 fun t => t.length
  titleBand := f.title.map fun t => (Band.ofTitle t.length).text
  description := f.description
  descriptionLength := f.description.elim 0 fun t => t.length
  descriptionBand := f.description.map fun t => (Band.ofDescription t.length).text
  ogTags := f.ogTags
  twitterTags := f.twitterTags
  canonical := f.canonical
  ogImage := f.ogImage
  issues := (judge f).map MetadataIssue.message
  source := source.text

end Metadata
end SeoAudit
