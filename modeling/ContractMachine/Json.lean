/-!
JSON documents as values, and their text. A value keeps what a reader may ask for: of a number the
natural number that it writes without sign, point and exponent, of a text whether its escapes name
characters, of a record its fields in order with all repetitions.
-/

namespace ContractMachine

inductive Json where
  | null
  | bool (value : Bool)
  | number (value : Option Nat)
  | string (value : Option String)
  | list (items : List Json)
  | record (fields : List (Option String × Json))

namespace Json

def isSpace (c : Char) : Bool := c == ' ' || c == '\n' || c == '\t' || c == '\r'

def skip (text : List Char) : List Char := text.dropWhile isSpace

def hexValue? (c : Char) : Option Nat :=
  if '0' ≤ c ∧ c ≤ '9' then some (c.toNat - 48)
  else if 'a' ≤ c ∧ c ≤ 'f' then some (c.toNat - 87)
  else if 'A' ≤ c ∧ c ≤ 'F' then some (c.toNat - 55)
  else none

def unit? (a b c d : Char) : Option Nat := do
  let a ← hexValue? a
  let b ← hexValue? b
  let c ← hexValue? c
  let d ← hexValue? d
  pure (((a * 16 + b) * 16 + c) * 16 + d)

def isHighHalf (unit : Nat) : Bool := 0xd800 ≤ unit && unit ≤ 0xdbff

def isLowHalf (unit : Nat) : Bool := 0xdc00 ≤ unit && unit ≤ 0xdfff

def escape? : Char → Option Char
  | '"' => some '"'
  | '\\' => some '\\'
  | '/' => some '/'
  | 'b' => some '\x08'
  | 'f' => some '\x0c'
  | 'n' => some '\n'
  | 'r' => some '\r'
  | 't' => some '\t'
  | _ => none

abbrev Body := Option (List Char) × List Char

def Body.cons (c : Char) : Body → Body
  | (text, rest) => (text.map (c :: ·), rest)

/-- An escape that is half of a character stands for none. -/
def Body.spoil : Body → Body
  | (_, rest) => (none, rest)

def body : List Char → Option Body
  | '"' :: rest => some (some [], rest)
  | '\\' :: 'u' :: a :: b :: c :: d :: rest =>
      match unit? a b c d with
      | none => none
      | some unit =>
          if isHighHalf unit then
            match rest with
            | '\\' :: 'u' :: e :: f :: g :: h :: later =>
                match unit? e f g h with
                | none => none
                | some low =>
                    if isLowHalf low then
                      (body later).map (Body.cons
                        (Char.ofNat (0x10000 + (unit - 0xd800) * 0x400 + (low - 0xdc00))))
                    else (body ('\\' :: 'u' :: e :: f :: g :: h :: later)).map Body.spoil
            | rest => (body rest).map Body.spoil
          else if isLowHalf unit then (body rest).map Body.spoil
          else (body rest).map (Body.cons (Char.ofNat unit))
  | '\\' :: e :: rest =>
      match escape? e with
      | some c => (body rest).map (Body.cons c)
      | none => none
  | c :: rest => if c.toNat < 0x20 then none else (body rest).map (Body.cons c)
  | [] => none
termination_by text => text.length

def isDigit (c : Char) : Bool := '0' ≤ c && c ≤ '9'

def digits? (text : List Char) : Option (List Char × List Char) :=
  match text.takeWhile isDigit with
  | [] => none
  | digits => some (digits, text.dropWhile isDigit)

/-- A whole number has no digits in front of it that say nothing. -/
def whole? : List Char → Option (List Char × List Char)
  | '0' :: rest => some (['0'], rest)
  | text => digits? text

def fraction? : List Char → Option (Bool × List Char)
  | '.' :: rest => (digits? rest).map fun (_, rest) => (true, rest)
  | text => some (false, text)

def exponent? : List Char → Option (Bool × List Char)
  | e :: rest =>
      if e == 'e' || e == 'E' then
        let digits := match rest with
          | '+' :: rest => rest
          | '-' :: rest => rest
          | rest => rest
        (digits? digits).map fun (_, rest) => (true, rest)
      else some (false, e :: rest)
  | [] => some (false, [])

def natOfDigits (digits : List Char) : Nat :=
  digits.foldl (fun total c => total * 10 + (c.toNat - 48)) 0

def number? (text : List Char) : Option (Json × List Char) := do
  let (negative, text) := match text with
    | '-' :: rest => (true, rest)
    | text => (false, text)
  let (whole, text) ← whole? text
  let (hasFraction, text) ← fraction? text
  let (hasExponent, text) ← exponent? text
  let plain := !negative && !hasFraction && !hasExponent
  pure (.number (if plain then some (natOfDigits whole) else none), text)

mutual

def value? : Nat → List Char → Option (Json × List Char)
  | 0, _ => none
  | fuel + 1, text =>
      match skip text with
      | 'n' :: 'u' :: 'l' :: 'l' :: rest => some (.null, rest)
      | 't' :: 'r' :: 'u' :: 'e' :: rest => some (.bool true, rest)
      | 'f' :: 'a' :: 'l' :: 's' :: 'e' :: rest => some (.bool false, rest)
      | '"' :: rest => (body rest).map fun (text, rest) => (.string (text.map String.ofList), rest)
      | '[' :: rest =>
          match skip rest with
          | ']' :: rest => some (.list [], rest)
          | rest => (items? fuel rest).map fun (items, rest) => (.list items, rest)
      | '{' :: rest =>
          match skip rest with
          | '}' :: rest => some (.record [], rest)
          | rest => (fields? fuel rest).map fun (fields, rest) => (.record fields, rest)
      | text => number? text

def items? : Nat → List Char → Option (List Json × List Char)
  | 0, _ => none
  | fuel + 1, text =>
      match value? fuel text with
      | none => none
      | some (item, rest) =>
          match skip rest with
          | ',' :: rest => (items? fuel rest).map fun (items, rest) => (item :: items, rest)
          | ']' :: rest => some ([item], rest)
          | _ => none

def fields? : Nat → List Char → Option (List (Option String × Json) × List Char)
  | 0, _ => none
  | fuel + 1, text =>
      match skip text with
      | '"' :: rest =>
          match body rest with
          | none => none
          | some (name, rest) =>
              match skip rest with
              | ':' :: rest =>
                  match value? fuel rest with
                  | none => none
                  | some (value, rest) =>
                      let field := (name.map String.ofList, value)
                      match skip rest with
                      | ',' :: rest => (fields? fuel rest).map fun (fields, rest) =>
                          (field :: fields, rest)
                      | '}' :: rest => some ([field], rest)
                      | _ => none
              | _ => none
      | _ => none

end

def parse? (text : String) : Option Json :=
  let chars := text.toList
  match value? (2 * chars.length + 2) chars with
  | some (value, rest) => if (skip rest).isEmpty then some value else none
  | none => none

end Json

end ContractMachine
