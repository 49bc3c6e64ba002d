import SeoAudit.Metadata.Basic
import SeoAudit.Parameters.Extract

/-! Metadata read off the page text. A page that calls the generator gets all
tags and the canonical link for granted; any other page must name them. -/
namespace SeoAudit
namespace Metadata

def assumedOgTags : List Text := ["title", "description", "image", "url", "type", "site_name"]

def assumedTwitterTags : List Text := ["card", "title", "description", "image", "site"]

def ogAliases : Table (List Text) :=
  [("title", ["og:title", "ogTitle"]), ("description", ["og:description", "ogDescription"]),
    ("image", ["og:image", "ogImage"]), ("url", ["og:url", "ogUrl"]),
    ("type", ["og:type", "ogType"]), ("site_name", ["og:site_name", "ogSiteName"])]

def twitterAliases : Table (List Text) :=
  [("card", ["twitter:card", "twitterCard"]), ("title", ["twitter:title", "twitterTitle"]),
    ("description", ["twitter:description", "twitterDescription"]),
    ("image", ["twitter:image", "twitterImage"]), ("site", ["twitter:site", "twitterSite"])]

def canonicalMarkers : List Text :=
  ["canonical:", "rel: 'canonical'", "rel: \"canonical\"", "rel=\"canonical\""]

def present (tags : List Text) : Table Bool := tags.map (·, true)

def mentioned (aliases : Table (List Text)) (text : Text) : Table Bool :=
  present (Table.keys (aliases.filter fun (_, names) => Text.anyOf names text))

def factsOfText (text : Text) (declared : Bool) : Facts where
  title := Parameters.text? "title" text
  description := Parameters.text? "description" text
  ogTags := if declared then present assumedOgTags else mentioned ogAliases text
  twitterTags := if declared then present assumedTwitterTags else mentioned twitterAliases text
  canonical := declared || Text.anyOf canonicalMarkers text

end Metadata
end SeoAudit
