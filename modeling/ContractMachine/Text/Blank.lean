/-!
Blank characters, those of the Unicode property White_Space, and the words that they part a text
into.
-/

namespace ContractMachine.Text

def isBlank (c : Char) : Bool :=
  let n := c.toNat
  (9 ≤ n && n ≤ 13) || n == 0x20 || n == 0x85 || n == 0xa0 || n == 0x1680 ||
    (0x2000 ≤ n && n ≤ 0x200a)
    || n == 0x2028 || n == 0x2029 || n == 0x202f || n == 0x205f || n == 0x3000

def keep (word : List Char) (words : List (List Char)) : List (List Char) :=
  if word.isEmpty then words else word :: words

/-- The word that a text begins with, which may be empty, and the words after it. -/
def split (text : List Char) : List Char × List (List Char) :=
  text.foldr
    (fun c (word, words) => if isBlank c then ([], keep word words) else (c :: word, words))
    ([], [])

def words (text : List Char) : List (List Char) :=
  keep (split text).1 (split text).2

end ContractMachine.Text
