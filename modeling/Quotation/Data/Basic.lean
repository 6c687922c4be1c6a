import Quotation.Value
import Quotation.Text.Literal
/-!
# Data to be made into values

The shapes in which a program hands over its data: scalars of several widths,
optional values, sequences, maps, structures and variants. A map is handed over
call by call, a key or a value at a time.
-/

namespace Quotation

/-- One call that adds to a map. -/
inductive MapCall (α : Type) where
  | key (k : α)
  | value (v : α)

inductive Data where
  | bool (b : Bool)
  | signed (n : Int64)
  | unsigned (n : UInt64)
  /-- an integer of 128 bits -/
  | wide (isSigned : Bool)
  /-- a binary32 value, as its bits -/
  | single (bits : UInt32)
  | double (d : Double)
  | char (c : Char)
  | text (s : String)
  | bytes (bs : List UInt8)
  | none
  | some (d : Data)
  | unit
  | unitStruct
  | unitVariant (name : String)
  | newtypeStruct (d : Data)
  | newtypeVariant (name : String) (d : Data)
  | sequence (items : List Data)
  | tuple (items : List Data)
  | tupleStruct (items : List Data)
  | tupleVariant (name : String) (items : List Data)
  | map (calls : List (MapCall Data))
  | struct (fields : List (String × Data))
  | structVariant (name : String) (fields : List (String × Data))
  /-- data that refuses to be handed over -/
  | failure (message : String)

/-- A map handed over entry by entry, each key before its value. -/
def Data.ofEntries (entries : List (Data × Data)) : Data :=
  .map (entries.flatMap fun e => [.key e.1, .value e.2])

/-- Why data has no value. -/
inductive DataError where
  | custom (message : String)
  | wideInteger (isSigned : Bool)
  | valueBeforeKey
  | keyMustBeAName
  | tooLarge (n : UInt64)
  | notFinite (d : Double)
deriving DecidableEq

/-- Whether the data is at fault or the program that handed it over. -/
inductive DataCategory where
  | data
  | custom
deriving DecidableEq

/-- The kinds under which failures are reported. -/
inductive DataErrorKind where
  | message
  | keyMustBeAName
  | numberOutOfRange
deriving DecidableEq

namespace DataError

def kind : DataError → DataErrorKind
  | custom _ | wideInteger _ | valueBeforeKey => .message
  | keyMustBeAName => .keyMustBeAName
  | tooLarge _ | notFinite _ => .numberOutOfRange

def category (e : DataError) : DataCategory :=
  match e.kind with
  | .message => .custom
  | .keyMustBeAName | .numberOutOfRange => .data

/-- The number that no value can hold, as text; for other failures the whole
message. -/
def particulars : DataError → String
  | custom message => message
  | wideInteger isSigned => (if isSigned then "i128" else "u128") ++ " is not supported"
  | valueBeforeKey => "serialize_value called before serialize_key"
  | keyMustBeAName => "map key must be a string or an integer"
  | tooLarge n => toString n.toNat
  | notFinite d => String.ofList (Layout.message.double d)

def text (e : DataError) : String :=
  match e.kind with
  | .numberOutOfRange => "number out of range: " ++ e.particulars
  | .message | .keyMustBeAName => e.particulars

/-- The failure as diagnostic text. -/
def diagnostic (e : DataError) : String :=
  match e.kind with
  | .message => "Message(" ++ String.ofList (Text.quote e.particulars) ++ ")"
  | .keyMustBeAName => "KeyMustBeAName"
  | .numberOutOfRange => "NumberOutOfRange(" ++ String.ofList (Text.quote e.particulars) ++ ")"

end DataError

end Quotation
