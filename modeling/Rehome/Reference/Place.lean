import Rehome.Place.Trail
import Rehome.Reference.Card
import Rehome.Reference.Query
import Rehome.Reference.Settings

/-! # References of a place

Each kind of place is renamed by its own rules. A card below a dashboard is a dashcard. The values and
fields of parameters are recomputed by the installation, and are left alone. -/

namespace Rehome.Renaming

variable (r : Renaming)

/-- Renames the place that a trail leads to. -/
def place (trail : Trail) (j : Json) : Plan Json :=
  match trail.kind? with
  | some .card => if trail.hasKind .dashboard then r.dashcardNode j else r.cardNode j
  | some .queryPart => r.queryPart j
  | some .join => r.join j
  | some .visualizationSettings => pure (r.visualizationSettings j)
  | some .tableColumns => r.tableColumns j
  | some .columnSettings => r.columnSettings j
  | some .clickBehavior => r.clickBehavior j
  | some .parameterMapping => r.parameterMapping j
  | some .parameter => r.parameter j
  | _ => pure j

end Rehome.Renaming
