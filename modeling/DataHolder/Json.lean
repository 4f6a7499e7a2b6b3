/-!
# JSON values

Records that are kept on a class are JSON values. Integers and doubles are told apart,
and the members of an object keep their order.
-/

namespace DataHolder

/-- A JSON value. -/
inductive Json where
  | null
  | bool (value : Bool)
  | int (value : Int)
  | double (value : Float)
  | str (value : String)
  | arr (items : List Json)
  | obj (members : List (String × Json))
deriving Inhabited

namespace Json

/-- The truth value that a boolean holds. -/
def bool? : Json → Option Bool
  | .bool b => some b
  | _ => none

/-- The text that a string holds. -/
def str? : Json → Option String
  | .str s => some s
  | _ => none

/-- The number that an integer holds, where it fits in 32 bits without sign. -/
def word? : Json → Option UInt32
  | .int i => if 0 ≤ i ∧ i < 4294967296 then some (UInt32.ofNat i.toNat) else none
  | _ => none

/-- The members of an object. -/
def obj? : Json → Option (List (String × Json))
  | .obj members => some members
  | _ => none

end Json

end DataHolder
