/-! What the command says about its own use. -/
namespace SeoAudit
namespace Usage

def synopsis : List String := [
  "usage: seocheck [-h] [--config CONFIG] [--json] [--no-sandbox]",
  "                [--workers WORKERS] [--log-file LOG_FILE] [-v]",
  "                [path]"]

def help : List String := synopsis ++ [
  "",
  "Score the SEO implementation of a Nuxt/Vue project.",
  "",
  "positional arguments:",
  "  path                 Path to the project root (defaults to current",
  "                       directory).",
  "",
  "options:",
  "  -h, --help           show this help message and exit",
  "  --config CONFIG      Path to a .seocheck.yml file (defaults to the one in",
  "                       the project root).",
  "  --json               Print the report as JSON instead of text.",
  "  --no-sandbox         Skip dynamic evaluation of generateSEO and analyze",
  "                       pages statically.",
  "  --workers WORKERS    Number of pages analyzed concurrently.",
  "  --log-file LOG_FILE  Also write log records to this file.",
  "  -v, --verbose        Increase log verbosity for troubleshooting."]

def misuse : List String := synopsis ++ ["seocheck: error: the arguments do not fit"]

def text (lines : List String) : String := String.join (lines.map (· ++ "\n"))

end Usage
end SeoAudit
