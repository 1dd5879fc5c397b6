import PeListing.Log.Directive

/-!
# Log filters

Which log records appear. A filter is a list of directives; for each record the most specific of
those that speak of it decides, and of equals the last one.
-/

namespace PeListing.Log

/-- Which records appear. -/
abbrev Filter : Type := List Directive

namespace Filter

/-- The texts of the directives in a list, which commas separate. -/
def texts (list : String) : List String :=
  ((Text.split ',' list.toList).map String.ofList).filter fun text => !text.isEmpty

/-- The filter of some directives. Without any, records of the most severe level appear. -/
def ofDirectives : List Directive → Filter
  | [] => [{ threshold := some .error }]
  | directives => directives

/-- The filter of a list in which every directive counts: the first that is refused refuses the
list. -/
def strict (list : String) : Except Refusal Filter :=
  ofDirectives <$> (texts list).mapM Directive.read

/-- The directive that decides on a record. -/
def directiveFor? (f : Filter) (r : Record) : Option Directive :=
  (f.filter fun d => d.speaksOf r).foldl
    (fun best d => if best.any fun b => d.lessSpecific b then best else some d) none

/-- Whether a record appears. -/
def passes (f : Filter) (r : Record) : Bool :=
  match f.directiveFor? r with
  | some d => d.threshold.any fun threshold => r.level.rank ≤ threshold.rank
  | none => false

end Filter

end PeListing.Log
