import FlowFabric.Foundation.Double

/-! Decoded JSON documents as a dynamically typed host language sees them. -/
namespace FlowFabric.Foundation

/-- A number written with digits only is an integer, any other one a double. An object keeps its fields in
source order. -/
inductive Json where
  | null
  | bool (b : Bool)
  | num (n : Int)
  | float (x : Double)
  | str (s : String)
  | arr (items : List Json)
  | obj (fields : List (String × Json))

/-- A text handed to a decoder: nothing, something that is not JSON, or a document. -/
inductive JsonText where
  | empty
  | malformed
  | doc (value : Json)

namespace Json

/-- The value stored under a key. A later duplicate of a key overwrites an earlier one. -/
def field : Json → String → Option Json
  | .obj fields, key => (fields.reverse.find? (fun f => f.1 = key)).map (·.2)
  | _, _ => none

def isTable : Json → Bool
  | .arr _ | .obj _ => true
  | _ => false

/-- What iteration over consecutive integer keys visits: all of an array, nothing of
an object. -/
def items : Json → List Json
  | .arr values => values
  | _ => []

/-- The digits of a decimal numeral. -/
def digits : List Char → Nat → Option Nat
  | [], acc => some acc
  | c :: cs, acc => if c.isDigit then digits cs (10 * acc + (c.toNat - '0'.toNat)) else none

/-- Decimal numerals with an optional sign. -/
def numeral (s : String) : Option Int :=
  match s.toList with
  | [] => none
  | '-' :: cs => if cs.isEmpty then none else (digits cs 0).map (fun n => -(n : Int))
  | cs => (digits cs 0).map Int.ofNat

/-- Conversion to a number of Lua: numbers are doubles, texts are read, nothing else converts. -/
def toNumber : Json → Option Double
  | .num n => some (.ofInt n)
  | .float x => some x
  | .str s => Double.read s
  | _ => none

end Json

def JsonText.isEmpty : JsonText → Bool
  | .empty => true
  | _ => false

end FlowFabric.Foundation
