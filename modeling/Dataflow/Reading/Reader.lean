import Dataflow.Text.WordChar
/-!
# Readers

A reader takes what it recognises off the front of a text, or fails and takes nothing. Of two readers
the second is tried only where the first one fails, and what has been taken is never given back.
-/
namespace Dataflow.Reading

abbrev Reader := StateT (List Char) Option

namespace Reader

variable {α : Type}

/-- What follows `word` in a text that starts with it. -/
def strip? : List Char → List Char → Option (List Char)
  | [], cs => some cs
  | _ :: _, [] => none
  | w :: word, c :: cs => if w = c then strip? word cs else none

def literal (word : String) : Reader Unit := fun cs =>
  (strip? word.toList cs).map ((), ·)

/-- A character of one class and all characters of another that follow. -/
def run (first rest : Char → Bool) : Reader String
  | [] => none
  | c :: cs =>
    if first c then some (String.ofList (c :: cs.takeWhile rest), cs.dropWhile rest) else none

/-- As often as the reader succeeds and takes something. -/
def many (r : Reader α) (cs : List Char) : List α × List Char :=
  match r cs with
  | none => ([], cs)
  | some (a, rest) =>
    if rest.length < cs.length then
      let (as, rest) := many r rest
      (a :: as, rest)
    else ([a], rest)
termination_by cs.length

def star (r : Reader α) : Reader (List α) := fun cs => some (many r cs)

/-- One or more, with a separator before every one but the first. -/
def separated (separator : Reader Unit) (r : Reader α) : Reader (List α) := do
  let first ← r
  let rest ← star (do separator; r)
  return first :: rest

/-- The first of several readers that succeeds. -/
def choice : List (Reader α) → Reader α
  | [] => fun _ => none
  | r :: rest => r <|> choice rest

/-- The number of characters taken off the front of a text. -/
def taken? (r : Reader α) (text : String) : Option Nat :=
  (r text.toList).map fun (_, rest) => text.length - rest.length

end Reader

end Dataflow.Reading
