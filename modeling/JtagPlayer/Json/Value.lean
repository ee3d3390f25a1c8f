/-!
# JSON values

A `Json` keeps what a document says: the order and repetition of the members of an object, and for a
number whether it was written as an integer of 64 bits.
-/

namespace JtagPlayer

/-- A number in a document. -/
inductive Number where
  /-- Written without point and exponent, and in the range of 64 bits. -/
  | integer (value : Int)
  /-- Any other number, as the nearest number that its reader can tell. -/
  | decimal (value : Float)
  deriving DecidableEq

/-- The number in double precision. -/
def Number.toFloat : Number → Float
  | .integer value => Float.ofInt value
  | .decimal value => value

/-- A JSON value. -/
inductive Json where
  | null
  | bool (value : Bool)
  | number (value : Number)
  | string (value : String)
  | array (items : List Json)
  | object (members : List (String × Json))

end JtagPlayer
