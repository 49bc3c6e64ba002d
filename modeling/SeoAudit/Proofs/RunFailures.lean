import SeoAudit.Proofs.CardShape
import SeoAudit.Proofs.Divisions
import SeoAudit.Proofs.ShortPaths
import SeoAudit.Proofs.StaticFallback

/-! What a run can fail of. Pages, sitemap, crawler rules and generator may be unreadable,
missing or something else than a file, and engines may answer what they like: the run still
ends in a report, whose numbers can all be shown. Only a missing pages directory is left to
fail of, as long as paths are short and no engine hides a graph that is nested too deep. -/
namespace SeoAudit

/-- A reply whose script holds a text that is nested too deep to be read. -/
def Reply.HidesDeepText (reply : Reply) : Prop :=
  ∃ members error, reply.decode = .ok members ∧ Metadata.PayloadTooDeep (some members) error

theorem Generator.verdictOf_output {reply : Reply} {members : Members}
    (output : (verdictOf reply).output? = some members) : reply.decode = .ok members := by
  unfold verdictOf at output
  cases decoded : reply.decode with
  | error fault =>
    rw [decoded] at output
    cases output
  | ok value =>
    rw [decoded] at output
    cases output
    rfl

namespace Document
variable {d : Document}

end Document

namespace Audit.Input
variable {i : Input} {layout : Layout} {page : List Text}

def Shallow (i : Input) : Prop :=
  ∀ page script timeout, ¬(i.engines page script timeout).HidesDeepText

def findings (i : Input) (layout : Layout) (outcomes : List PageOutcome) : Findings :=
  .ofPages (outcomes.filterMap PageOutcome.page?)
    (layout.sitemapFile.map (·.relativeTo layout.root))
    (readSitemap i.tree layout).value (some (readRobots i.tree layout).value)

def longNamedShop : Input where
  tree := .directory [("pages", .directory [])]
  engines _ _ _ := .failed "Error" "boom"
  root := { segments := [] }
  config :=
    { root := { segments := [] }
      pagesDir := some { segments := [List.replicate 256 (.char 'a')] } }

/-- Its run ends neither in a report nor in the fault for a missing pages directory. -/
theorem longNamedShop_is_not_reported :
    ¬ ∀ i : Input, i.Shallow → ∀ o, i.Yields o →
      o = .error (.layout .noPagesDirectory) ∨ ∃ report, o = .ok report := by
  intro law
  have shallow : longNamedShop.Shallow := by
    rintro page script timeout ⟨members, error, decoded, -⟩
    cases decoded
  have refused : Layout.detect longNamedShop.tree longNamedShop.settings =
      .error (.badPath
        (.tooLong (Path.text { segments := [List.replicate 256 (.char 'a')] }))) := by
    decide +kernel
  have noLayout : longNamedShop.layout = .error (.layout (.badPath (.tooLong
      (Path.text { segments := [List.replicate 256 (.char 'a')] })))) := by
    rw [Input.layout, refused]
    rfl
  rcases law longNamedShop shallow _ (.noLayout noLayout) with missing | ⟨report, reported⟩
  · cases missing
  · cases reported

end Audit.Input
end SeoAudit
