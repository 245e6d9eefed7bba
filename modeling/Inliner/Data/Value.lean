/-!
Values of the data formats that configurations are written in.
-/

namespace Inliner.Data

/-- A value. The fields of a table are in the order in which they are looked at. -/
inductive Value where
  | null
  | boolean (value : Bool)
  | integer (value : Int)
  | float (value : Float)
  | string (value : String)
  | array (items : List Value)
  | table (fields : List (String × Value))
deriving Repr, Inhabited

end Inliner.Data
