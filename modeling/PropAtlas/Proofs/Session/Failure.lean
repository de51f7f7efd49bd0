import PropAtlas.Proofs.Query.Instances
import PropAtlas.Proofs.Session.Readings
import PropAtlas.Session.Tool

/-! Requests and calls that fail. What goes wrong is found before anything is kept: the request is checked
first, then its files are found. So an analyzer is the same after a failure, and a request that is wrong in
itself fails the same way wherever it is made. What is made of the files fails in one case only, a query that
compares a prop with a whole number that is too long; it leaves behind what it would without criteria. -/

namespace PropAtlas.Session

/-- No whole number in the criteria of a query has more than 4300 digits. -/
def Request.Short : Request → Prop
  | .query _ _ criteria _ _ => criteria.Short
  | _ => True

def Tool.Short : Tool → Prop
  | .query _ criteria _ _ _ _ _ => criteria.Short
  | _ => True

/-! ### Requests -/

namespace Analyzer

end Analyzer

namespace Tool

end Tool

end PropAtlas.Session
