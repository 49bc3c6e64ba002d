import SeoAudit.Text.Search

/-! Whether crawler rules are configured: by the robots module of the framework,
or else by a static file. -/
namespace SeoAudit

structure Robots where
  configured : Bool := false
  source : Option Text := none
  message : Text := "No robots configuration found"
  hasEnvironmentRules : Bool := false
deriving DecidableEq, Repr, Inhabited

namespace Robots

def moduleName : Text := "@nuxtjs/robots"

def unreadable : Robots := { message := "Robots configuration unreadable" }

def isDecidedBy (text : Text) : Bool := Text.mentions text moduleName

/-- The verdict from the text of the framework configuration and the presence of a
static file. -/
def ofConfig (text : Text) (hasFile : Bool) : Robots :=
  if isDecidedBy text then
    if Text.mentions text "robots:" then
      { configured := true, source := some moduleName
        message := "Robots configuration found in nuxt.config"
        hasEnvironmentRules :=
          Text.mentions text "process.env.ENV_TYPE" || Text.mentions text "process.env.NODE_ENV" }
    else
      { configured := true, source := some moduleName
        message := "Robots module installed but no configuration found" }
  else if hasFile then
    { configured := true, source := some "static file", message := "Static robots.txt file found" }
  else {}

end Robots
end SeoAudit
