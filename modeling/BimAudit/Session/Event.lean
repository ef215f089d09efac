import BimAudit.Audit.Report
import BimAudit.Session.Source

/-!
# Events

An observer of a session learns when it starts, how far every model has come, and the report at the
end. Progress is counted in units: one for reading a model, and one for each specification.
-/

namespace BimAudit.Session

/-- How far the models have come. -/
structure Progress where
  /-- The model that has come further. -/
  file : String
  /-- Its position among the models. -/
  position : Nat
  /-- The units done, for every model. -/
  units : List Nat
  /-- The units that there are for each model. -/
  unitsPerFile : Nat
deriving DecidableEq, Repr

namespace Progress

/-- The percentage that some units make. -/
def percent (p : Progress) (units : Nat) : Float :=
  let x := units.toFloat / p.unitsPerFile.toFloat * 100
  if x > 100 then 100 else x

/-- The percentage done of the model. -/
def filePercent (p : Progress) : Float := p.percent (p.units.getD p.position 0)

/-- The mean percentage over all models. -/
def overallPercent (p : Progress) : Float :=
  (p.units.map p.percent).foldl (· + ·) 0 / p.units.length.toFloat

end Progress

/-- What an observer learns. -/
inductive Event where
  | started (strategy : Strategy) (files : Nat)
  | progress (p : Progress)
  | complete (report : Audit.Report)
deriving DecidableEq, Repr

end BimAudit.Session
