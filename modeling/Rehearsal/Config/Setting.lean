/-!
# Settings

The values that a configuration is written with, whatever format it comes in. A table
keeps its entries in the order written.
-/

namespace Rehearsal

inductive Setting where
  | missing
  | truth (b : Bool)
  | int (n : Int)
  /-- A number with a fraction or an exponent. -/
  | fraction
  /-- A date, a time of day, or both. -/
  | date
  | text (s : String)
  | list (items : List Setting)
  | table (entries : List (String × Setting))
  deriving Repr, Inhabited

end Rehearsal
