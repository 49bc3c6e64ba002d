import SeoAudit.Json.Writer
import SeoAudit.Parameters.Extract

/-! The script that calls the generator: a fixed opening for the site's origin,
stand-ins for the schema helpers, the definition, one line that holds the
arguments, and a fixed end that gives the result as JSON text. -/
namespace SeoAudit
namespace Script

def pathname : Text := "/test-page"

def helpers : List Text := [
  "",
  "const generateFAQSchema = (faqs) => \x7b",
  "  if (!faqs || !faqs.length) return [];",
  "  return [\x7b",
  "    \"@type\": \"FAQPage\",",
  "    mainEntity: faqs.map((faq) => (\x7b",
  "      \"@type\": \"Question\",",
  "      name: faq.question,",
  "      acceptedAnswer: \x7b \"@type\": \"Answer\", text: faq.answer \x7d",
  "    \x7d))",
  "  \x7d];",
  "\x7d;",
  "const generateBranchSchema = (branches) => \x7b",
  "  if (!branches || !branches.length) return [];",
  "  return branches.map((branch) => (\x7b \"@type\": \"LocalBusiness\", name: branch.name \x7d));",
  "\x7d;",
  "const generateServiceSchema = (services) => \x7b",
  "  if (!services || !services.length) return [];",
  "  return services.map((service) => (\x7b \"@type\": \"Service\", name: service.name \x7d));",
  "\x7d;",
  "const generateProductSchema = (products) => \x7b",
  "  if (!products || !products.length) return [];",
  "  return products.map((product) => (\x7b \"@type\": \"Product\", name: product.name \x7d));",
  "\x7d;",
  "const generateNewsArticleSchema = (news) => \x7b",
  "  if (!news || !news.length) return [];",
  "  return news.map((article) => (\x7b \"@type\": \"NewsArticle\", headline: article.name \x7d));",
  "\x7d;",
  "const generateGrantSchema = (grant) => (grant ? \x7b \"@type\": \"Grant\" \x7d : null);",
  ("const generateContactPageSchema = (contactPage) => " : Text) ++
    "(contactPage ? \x7b \"@type\": \"ContactPage\" \x7d : null);",
  ""]

def requestUrl (origin : Text) : Json := .object [
  ("origin", .string origin), ("pathname", .string pathname),
  ("href", .string (origin ++ pathname))]

def runtimeConfig (origin : Text) : Json := .object [
  ("public", .object [("siteUrl", .string origin)])]

def opening (origin : Text) : List Text := ([
  "(function () \x7b",
  ("const console = \x7b log() \x7b\x7d, info() \x7b\x7d, warn() \x7b\x7d, " : Text) ++
    "error() \x7b\x7d, debug() \x7b\x7d \x7d;",
  "const useRequestURL = () => (" ++ (requestUrl origin).line ++ ");",
  "const useRuntimeConfig = () => (" ++ (runtimeConfig origin).line ++ ");"] : List Text) ++ helpers

def argumentLine (arguments : Members) : Text :=
  "const params = " ++ (Json.object arguments).line ++ ";"

def ending : List Text := [
  "return JSON.stringify(" ++ Parameters.generatorName ++ "(params));", "\x7d)()"]

/-- The whole script. -/
def assemble (origin definition : Text) (arguments : Members) : Text :=
  Text.joined "\n" (opening origin ++ [definition, argumentLine arguments] ++ ending)

end Script
end SeoAudit
