import ContractMachine.Bytes.Hex
import ContractMachine.Json
import ContractMachine.Quantity
import ContractMachine.Word

/-!
Reading values off JSON documents. Records are given by name, with fields that are not known left
aside and none of the others twice, or as a list of their fields in order.
-/

namespace ContractMachine

abbrev Reader (α : Type) := Json → Option α

namespace Reader

def quantity : Reader Nat
  | .number (some n) => if n ≤ Quantity.limit then some n else none
  | _ => none

def byte : Reader UInt8
  | .number (some n) => if n < 256 then some (UInt8.ofNat n) else none
  | _ => none

def flag : Reader Bool
  | .bool value => some value
  | _ => none

def text : Reader String
  | .string value => value
  | _ => none

def list {α : Type} (item : Reader α) : Reader (List α)
  | .list items => items.mapM item
  | _ => none

def array {α : Type} (item : Reader α) : Reader (Array α) := fun json =>
  (list item json).map List.toArray

def bytes : Reader Bytes := array byte

def nullable {α : Type} (reader : Reader α) : Reader (Option α)
  | .null => some none
  | json => (reader json).map some

def case {α : Type} (cases : List (String × α)) : Reader α
  | .string (some name) => cases.lookup name
  | .record [(some name, .null)] => cases.lookup name
  | _ => none

def isHexBlank (digit : UInt8) : Bool := digit == 32 || digit == 13 || digit == 10 || digit == 9

def afterMark : List UInt8 → List UInt8
  | 48 :: 120 :: rest => rest
  | text => text

-- Blanks among the digits count for the length of the text, and by that length it is decided
-- whether the first digit stands for a byte; a last digit without a partner is left out.
def hexWord? (text : String) : Option Word := do
  let digits := afterMark (Hex.utf8 text.toList)
  if digits.isEmpty || 64 < digits.length then none
  else
    let values ← (digits.filter fun digit => !isHexBlank digit).mapM Hex.digitValue?
    let aligned := if digits.length % 2 = 1 then 0 :: values else values
    let paired := aligned.take (aligned.length / 2 * 2)
    some (Word.ofNat (paired.foldl (fun total value => total * 16 + value) 0))

def word : Reader Word
  | .string (some value) => hexWord? value
  | _ => none

end Reader

/-- The fields of a record that are known, each at most once. -/
structure Fields where
  -- Given in order, so that only the last ones can be missing.
  inOrder : Bool
  values : List (String × Json)

namespace Fields

def ofNamed (names : List String) (fields : List (Option String × Json)) : Option Fields := do
  let named ← fields.mapM fun (name, value) => name.map fun name => (name, value)
  let known := named.filter fun (name, _) => names.contains name
  if (known.map Prod.fst).Nodup then some ⟨false, known⟩ else none

def ofOrdered (names : List String) (items : List Json) : Option Fields :=
  if items.length ≤ names.length then some ⟨true, names.zip items⟩ else none

def read (names : List String) : Json → Option Fields
  | .record fields => ofNamed names fields
  | .list items => ofOrdered names items
  | _ => none

def required {α : Type} (fields : Fields) (name : String) (reader : Reader α) : Option α := do
  let value ← fields.values.lookup name
  reader value

def orElse {α : Type} (fields : Fields) (name : String) (reader : Reader α) (missing : α) :
    Option α :=
  match fields.values.lookup name with
  | some value => reader value
  | none => some missing

def optional {α : Type} (fields : Fields) (name : String) (reader : Reader α) : Option (Option α) :=
  match fields.values.lookup name with
  | some value => Reader.nullable reader value
  | none => if fields.inOrder then none else some none

end Fields

end ContractMachine
