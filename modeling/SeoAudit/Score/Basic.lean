import SeoAudit.Coverage
import SeoAudit.Robots
import SeoAudit.Sitemap

/-! Scored categories and the card that collects them. Each of the five areas earns
up to 20 points. -/
namespace SeoAudit

structure Category where
  key : Text
  name : Text
  score : Number := 0
  maxScore : Number := 20
  issues : List Text := []
deriving DecidableEq, Repr, Inhabited

namespace Category

def percentage (c : Category) : Int := Number.percentOf c.score c.maxScore

def find? (key : Text) (categories : List Category) : Option Category :=
  categories.find? (·.key == key)

end Category

inductive Area where
  | metaTags | technical | structuredData | imagesMedia | social
deriving DecidableEq, Repr

namespace Area

def all : List Area := [metaTags, technical, structuredData, imagesMedia, social]

def key : Area → Text
  | metaTags => "meta_tags"
  | technical => "technical_seo"
  | structuredData => "structured_data"
  | imagesMedia => "images_media"
  | social => "social_sharing"

def title : Area → Text
  | metaTags => "Meta Tags"
  | technical => "Technical SEO"
  | structuredData => "Structured Data"
  | imagesMedia => "Images & Media"
  | social => "Social Sharing"

def category (a : Area) (score : Number) (issues : List Text) : Category :=
  { key := a.key, name := a.title, score, issues }

end Area

structure Findings where
  coverage : Coverage
  sitemap : Sitemap
  robots : Option Robots

namespace Findings

def hasRobots (f : Findings) : Bool := f.robots.any (·.configured)

end Findings

structure ScoreCard where
  categories : List Category
  sitemap : Sitemap
  totalImages : Int := 0
  imagesWithoutAlt : Int := 0
  recommendations : List Text := []
  quickFixes : List Text := []
deriving Repr

end SeoAudit
