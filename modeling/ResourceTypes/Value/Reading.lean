import ResourceTypes.Text.Quoted
import ResourceTypes.Value.Basic

/-!
# Reading typed data out of values

A reading either succeeds or says what it met, what it wanted, and the path that leads there. The
first fault in the order of the document decides. Documents of different origin are read under
different conventions: whether null may stand for something empty, and whether a record may be
given by position.
-/

namespace ResourceTypes

inductive PathStep
  | field (name : String)
  | item (index : Nat)
  /-- A key that has no name. -/
  | unnamed

inductive Found
  | null
  | unit
  | bool (value : Bool)
  | int (value : Int)
  | real (value : Real)
  | str (value : String)
  | seq
  | map
  | tagged

inductive Wanted
  | string
  | boolean
  | sequence
  | mapping
  | record (name : String)
  | fieldName
  | firstKey
  | anyJson

inductive ReadCause
  | wrongType (found : Found) (wanted : Wanted)
  | missingField (name : String)
  | repeatedField (name : String)
  /-- A record given by position stops before a field that it needs. -/
  | shortRecord (length : Nat) (record : String) (fields : Nat)
  | longRecord (length : Nat)
  | noAlternative (name : String)
  /-- A tag where an alternative has to be chosen. -/
  | taggedAlternative

structure ReadError where
  path : List PathStep
  cause : ReadCause

abbrev ReadResult (α : Type) := Except ReadError α

/-- The conventions of a reading. -/
structure Reading where
  /-- Null is an empty sequence, mapping or record. -/
  nullIsEmpty : Bool
  /-- A sequence may give the fields of a record in their order. -/
  recordsByPosition : Bool
  /-- An integer may name a field by its place. -/
  fieldsByNumber : Bool
  /-- How null is reported. -/
  null : Found

namespace Reading

/-- Values of a document with mappings, sequences and tags. -/
def document : Reading := ⟨true, false, false, .unit⟩

/-- Values of a JSON text. -/
def json : Reading := ⟨false, true, false, .null⟩

/-- Values below a choice between alternatives. -/
def choice : Reading := ⟨false, true, true, .unit⟩

def found (r : Reading) : Value → Found
  | .null => r.null
  | .bool b => .bool b
  | .int n => .int n
  | .real x => .real x
  | .str s => .str s
  | .seq _ => .seq
  | .map _ => .map
  | .tagged _ _ => .tagged

def refuse {α : Type} (r : Reading) (v : Value) (wanted : Wanted) : ReadResult α :=
  .error ⟨[], .wrongType (r.found v.untag) wanted⟩

end Reading

namespace ReadResult

def fail {α : Type} (cause : ReadCause) : ReadResult α :=
  .error ⟨[], cause⟩

def within {α : Type} (step : PathStep) : ReadResult α → ReadResult α
  | .ok x => .ok x
  | .error e => .error { e with path := step :: e.path }

end ReadResult

namespace Reading

def string (r : Reading) (v : Value) : ReadResult String :=
  match v.untag with
  | .str s => .ok s
  | _ => r.refuse v .string

def boolean (r : Reading) (v : Value) : ReadResult Bool :=
  match v.untag with
  | .bool b => .ok b
  | _ => r.refuse v .boolean

/-- Null is an absent value, unless it has a tag. -/
def optional {α : Type} (read : Value → ReadResult α) : Value → ReadResult (Option α)
  | .null => .ok none
  | v => (read v).map some

/-- Read all items, each below its index. -/
def items {α : Type} (read : Value → ReadResult α) (index : Nat) :
    List Value → ReadResult (List α)
  | [] => .ok []
  | v :: rest => do
    let x ← ReadResult.within (.item index) (read v)
    let xs ← items read (index + 1) rest
    return x :: xs

def sequence {α : Type} (r : Reading) (read : Value → ReadResult α) (v : Value) :
    ReadResult (List α) :=
  match v.untag with
  | .seq xs => items read 0 xs
  | .null => if r.nullIsEmpty then .ok [] else r.refuse v .sequence
  | _ => r.refuse v .sequence

def key (r : Reading) (wanted : Wanted) (k : Value) : ReadResult String :=
  match k.untag with
  | .str s => .ok s
  | _ => ReadResult.within .unnamed (r.refuse k wanted)

/-- The field of a record that a key names, among its fields in their order. Other names are of no
account. -/
def fieldName (r : Reading) (fields : List String) (k : Value) : ReadResult (Option String) :=
  match k.untag with
  | .str s => .ok (if s ∈ fields then some s else none)
  | .int n =>
    if r.fieldsByNumber && 0 ≤ n then .ok fields[n.toNat]?
    else ReadResult.within .unnamed (r.refuse k .fieldName)
  | _ => ReadResult.within .unnamed (r.refuse k .fieldName)

/-- Fill a record from the entries of a mapping. A field may be given once only. -/
def fill {σ : Type} (r : Reading) (fields : List String)
    (set : σ → String → Value → ReadResult σ) (seen : List String) (draft : σ) :
    List (Value × Value) → ReadResult σ
  | [] => .ok draft
  | (k, v) :: rest => do
    match ← r.fieldName fields k with
    | none => fill r fields set seen draft rest
    | some name =>
      if name ∈ seen then .error ⟨[], .repeatedField name⟩
      let draft ← ReadResult.within (.field name) (set draft name v)
      fill r fields set (name :: seen) draft rest

def record {σ : Type} (r : Reading) (name : String) (fields : List String)
    (set : σ → String → Value → ReadResult σ) (draft : σ) (v : Value) : ReadResult σ :=
  match v.untag with
  | .map entries => r.fill fields set [] draft entries
  | .null => if r.nullIsEmpty then .ok draft else r.refuse v (.record name)
  | _ => r.refuse v (.record name)

end Reading

/-- The value of a field that has to be there. -/
def required {α : Type} (name : String) : Option α → ReadResult α
  | some x => .ok x
  | none => .error ⟨[], .missingField name⟩

mutual

/-- Any value without tags and with string keys is a JSON value. Numbers that JSON cannot write are
null. -/
def Reading.anyJson (r : Reading) : Value → ReadResult Json
  | .null => .ok .null
  | .bool b => .ok (.bool b)
  | .int n => .ok (.num (.int n))
  | .real (.finite d) => .ok (.num (.float d))
  | .real _ => .ok .null
  | .str s => .ok (.str s)
  | .seq items => do return .arr (← Reading.jsonItems r 0 items)
  | .map entries => do return .obj (← Reading.jsonFields r .firstKey [] entries)
  | .tagged _ _ => .error ⟨[], .wrongType .tagged .anyJson⟩

def Reading.jsonItems (r : Reading) (index : Nat) : List Value → ReadResult (List Json)
  | [] => .ok []
  | v :: rest => do
    let x ← ReadResult.within (.item index) (Reading.anyJson r v)
    let xs ← Reading.jsonItems r (index + 1) rest
    return x :: xs

/-- The fields after those read. A key that comes again replaces the value. -/
def Reading.jsonFields (r : Reading) (wanted : Wanted) (fields : List (String × Json)) :
    List (Value × Value) → ReadResult (List (String × Json))
  | [] => .ok fields
  | (k, v) :: rest => do
    let name ← r.key wanted k
    let x ← ReadResult.within (.field name) (Reading.anyJson r v)
    Reading.jsonFields r .string (Keyed.set name x fields) rest

end

/-- The step to the value of a key. Keys that are strings, integers or booleans have a name. -/
def Value.keyStep : Value → PathStep
  | .str s => .field s
  | .int n => .field (String.ofList (Decimal.intChars n))
  | .bool b => .field (if b then "true" else "false")
  | _ => .unnamed

mutual

def Value.firstTag? : Value → Option (List PathStep)
  | .tagged _ _ => some []
  | .seq items => Value.firstTagItem? 0 items
  | .map entries => Value.firstTagEntry? entries
  | _ => none

def Value.firstTagItem? (index : Nat) : List Value → Option (List PathStep)
  | [] => none
  | v :: rest =>
    match Value.firstTag? v with
    | some path => some (.item index :: path)
    | none => Value.firstTagItem? (index + 1) rest

def Value.firstTagEntry? : List (Value × Value) → Option (List PathStep)
  | [] => none
  | (k, v) :: rest =>
    match Value.firstTag? k with
    | some _ => some [.unnamed]
    | none =>
      match Value.firstTag? v with
      | some path => some (k.keyStep :: path)
      | none => Value.firstTagEntry? rest

end

namespace ReadError

def realChars : Real → List Char
  | .finite d => d.plainChars
  | .infinite negative => (if negative then "-inf" else "inf").toList
  | .nan => "NaN".toList

def tick : Char := Char.ofNat 96

def ticked (cs : List Char) : List Char :=
  tick :: cs ++ [tick]

def foundChars : Found → List Char
  | .null => "null".toList
  | .unit => "unit value".toList
  | .bool b => "boolean ".toList ++ ticked (if b then "true".toList else "false".toList)
  | .int n => "integer ".toList ++ ticked (Decimal.intChars n)
  | .real x => "floating point ".toList ++ ticked (realChars x)
  | .str s => "string ".toList ++ Text.quotedChars s.toList
  | .seq => "sequence".toList
  | .map => "map".toList
  | .tagged => "enum".toList

def wantedText : Wanted → String
  | .string => "a string"
  | .boolean => "a boolean"
  | .sequence => "a sequence"
  | .mapping => "a map"
  | .record name => "struct " ++ name
  | .fieldName => "field identifier"
  | .firstKey => "a string key"
  | .anyJson => "any valid JSON value"

def causeChars : ReadCause → List Char
  | .wrongType found wanted =>
    "invalid type: ".toList ++ foundChars found ++ ", expected ".toList ++
      (wantedText wanted).toList
  | .missingField name => "missing field ".toList ++ ticked name.toList
  | .repeatedField name => "duplicate field ".toList ++ ticked name.toList
  | .shortRecord length record fields =>
    "invalid length ".toList ++ Decimal.natChars length ++ ", expected struct ".toList ++
      record.toList ++ " with ".toList ++ Decimal.natChars fields ++ " elements".toList
  | .longRecord length =>
    "invalid length ".toList ++ Decimal.natChars length ++
      ", expected fewer elements in array".toList
  | .noAlternative name =>
    "data did not match any variant of untagged enum ".toList ++ name.toList
  | .taggedAlternative =>
    "untagged and internally tagged enums do not support enum input".toList

/-- Items stand in brackets, and a point precedes every other step but the first. -/
def pathChars : List PathStep → List Char
  | [] => []
  | .item i :: rest => '[' :: Decimal.natChars i ++ ']' :: pathChars rest
  | .field name :: rest => '.' :: name.toList ++ pathChars rest
  | .unnamed :: rest => '.' :: '?' :: pathChars rest

/-- The path of an error. The whole document is a single point. -/
def location (e : ReadError) : String :=
  String.ofList <| match e.path with
    | [] => ['.']
    | .item i :: rest => pathChars (.item i :: rest)
    | step :: rest => (pathChars (step :: rest)).drop 1

def message (e : ReadError) : String :=
  String.ofList (causeChars e.cause)

end ReadError

end ResourceTypes
