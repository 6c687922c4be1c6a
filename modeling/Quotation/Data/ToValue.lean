import Quotation.Data.Basic
import Quotation.Error
/-!
# The value of data

Data becomes a value of the same shape: sequences, tuples and bytes become lists
without names, maps and structures lists with names, a variant that holds data a
list with one entry named after it. What the values cannot hold is a failure, and
the first one met is reported, keys before their values.
-/

namespace Quotation

/-- A map that is being handed over: the entries so far, and the name that waits
for its value. -/
structure MapBuilder where
  entries : List (Arg Value)
  pending : Option String

namespace MapBuilder

def empty : MapBuilder := ⟨[], none⟩

/-- The name that a key gives its entry: a non-empty string, or an integer in
decimal digits. -/
def keyName : Value → Except DataError String
  | .scalar (.string s) => if s.isEmpty then .error .keyMustBeAName else .ok s
  | .scalar (.number (.int n)) => .ok (Number.int n).display
  | _ => .error .keyMustBeAName

/-- Takes a key. It replaces one that waits; a failure leaves that one waiting. -/
def takeKey (b : MapBuilder) (key : Except DataError Value) : MapBuilder × Except DataError Unit :=
  match key.bind keyName with
  | .ok name => ({ b with pending := some name }, .ok ())
  | .error e => (b, .error e)

/-- Takes a value for the name that waits. Without one it fails whatever the value
is, and with one the name is used up even if the value fails. -/
def takeValue (b : MapBuilder) (value : Except DataError Value) :
    MapBuilder × Except DataError Unit :=
  match b.pending with
  | none => (b, .error .valueBeforeKey)
  | some name =>
    match value with
    | .ok v => (⟨b.entries ++ [.named name v], none⟩, .ok ())
    | .error e => ({ b with pending := none }, .error e)

end MapBuilder

namespace Data

/-- The list with one entry that a variant becomes. -/
def variant (name : String) (v : Value) : Value := .list [.named name v]

def unnamed (items : List Value) : Value := .list (items.map .unnamed)

/-- A natural number as a value, if it is one of the integers. -/
def ofNatural (n : UInt64) : Except DataError Value :=
  match Number.ofInt? n.toNat with
  | .some i => .ok (.ofNumber i)
  | .none => .error (.tooLarge n)

/-- A double as a value, if it is finite. -/
def ofDouble (d : Double) : Except DataError Value :=
  match Number.ofDouble? d with
  | .some n => .ok (.ofNumber n)
  | .none => .error (.notFinite d)

mutual
/-- The value of data, or the first failure. -/
def toValue : Data → Except DataError Value
  | bool b => .ok (.ofBool b)
  | signed n => .ok (.ofInt n)
  | unsigned n => ofNatural n
  | wide isSigned => .error (.wideInteger isSigned)
  | single bits => ofDouble (.ofSingle bits)
  | double d => ofDouble d
  | char c => .ok (.ofString c.toString)
  | text s => .ok (.ofString s)
  | bytes bs => .ok (unnamed (bs.map fun b => .ofInt b.toNat.toInt64))
  | none => .ok .null
  | some d => d.toValue
  | unit => .ok .null
  | unitStruct => .ok .null
  | unitVariant name => .ok (.ofString name)
  | newtypeStruct d => d.toValue
  | newtypeVariant name d => return variant name (← d.toValue)
  | sequence items => return unnamed (← toValues items)
  | tuple items => return unnamed (← toValues items)
  | tupleStruct items => return unnamed (← toValues items)
  | tupleVariant name items => return variant name (unnamed (← toValues items))
  | map calls => return .list (← toEntries .empty calls)
  | struct fields => return .list (← toFields fields)
  | structVariant name fields => return variant name (.list (← toFields fields))
  | failure message => .error (.custom message)

def toValues : List Data → Except DataError (List Value)
  | [] => .ok []
  | d :: ds => return (← d.toValue) :: (← toValues ds)

def toFields : List (String × Data) → Except DataError (List (Arg Value))
  | [] => .ok []
  | f :: fs => return .named f.1 (← f.2.toValue) :: (← toFields fs)

/-- The entries of a map after the calls. -/
def toEntries (b : MapBuilder) : List (MapCall Data) → Except DataError (List (Arg Value))
  | [] => .ok b.entries
  | .key k :: rest =>
    match b.takeKey k.toValue with
    | (b, .ok ()) => toEntries b rest
    | (_, .error e) => .error e
  | .value v :: rest =>
    match b.takeValue v.toValue with
    | (b, .ok ()) => toEntries b rest
    | (_, .error e) => .error e
end

end Data

/-- The failure under which evaluation reports that data has no value. -/
def DataError.toError (e : DataError) : Error := .of (.message e.text)

end Quotation
