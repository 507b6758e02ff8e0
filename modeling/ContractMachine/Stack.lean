import ContractMachine.Fault

/-!
The operand stack: words, the topmost first, up to a limit. `checkArity` answers for a whole
instruction what the single operations would run into.
-/

namespace ContractMachine

structure Stack where
  limit : Nat
  words : List Word := []
  deriving DecidableEq

namespace Stack

def size (stack : Stack) : Nat := stack.words.length

def checkArity (stack : Stack) (pops pushes : Nat) : Except Fault Unit :=
  let size := stack.size
  if size < pops then .error (.stackUnderflow pops size)
  else if stack.limit < size - pops + pushes then
    .error (.stackOverflow (size - pops + pushes) stack.limit)
  else .ok ()

def push (stack : Stack) (word : Word) : Except Fault Stack :=
  if stack.size < stack.limit then .ok { stack with words := word :: stack.words }
  else .error (.stackOverflow (stack.size + 1) stack.limit)

def pop (stack : Stack) : Except Fault (Word × Stack) :=
  match stack.words with
  | word :: rest => .ok (word, { stack with words := rest })
  | [] => .error (.stackUnderflow 1 0)

def get (stack : Stack) (depth : Nat) : Except Fault Word :=
  match stack.words[depth]? with
  | some word => .ok word
  | none => .error (.stackUnderflow (depth + 1) stack.size)

def swap (stack : Stack) (i j : Nat) : Except Fault Stack :=
  match stack.words[i]?, stack.words[j]? with
  | some a, some b => .ok { stack with words := (stack.words.set i b).set j a }
  | _, _ => .error (.stackUnderflow (max i j + 1) stack.size)

def dup (stack : Stack) (depth : Nat) : Except Fault Stack := do
  let word ← stack.get depth
  stack.push word

theorem checkArity_eq_ok_iff (stack : Stack) (pops pushes : Nat) :
    stack.checkArity pops pushes = .ok () ↔ pops ≤ stack.size ∧
    stack.size - pops + pushes ≤ stack.limit := by
  unfold checkArity
  grind

end Stack

end ContractMachine
