import Dataflow.Reading.Grammar
import Dataflow.Reading.Scope
import Dataflow.Routine.Basic
import Dataflow.Text.Line
/-!
# Reading a routine

Lines are read in order. A label waits for the next statement, on its own line or a later one; labels
that wait to the end stand before a `nop` that is added there. Jumps find their statements once all
labels are known.
-/
namespace Dataflow.Reading

/-- A statement whose jumps go to labels, with the number of its line. -/
structure Labelled where
  stmt : Stmt String
  line : Nat

/-- What has been read so far. -/
structure Assembly where
  scope : Scope := {}
  body : Array Labelled := #[]
  /-- Labels and the indexes of their statements. -/
  labels : List (String × Nat) := []
  /-- Labels that wait for a statement, with their lines. -/
  waiting : List (String × Nat) := []

namespace Assembly

/-- Adds a statement, which all waiting labels then stand for. -/
def append (a : Assembly) (stmt : Stmt String) (line : Nat) : Assembly :=
  { a with
    body := a.body.push ⟨stmt, line⟩
    labels := a.labels ++ a.waiting.map fun (name, _) => (name, a.body.size)
    waiting := [] }

def knows (a : Assembly) (label : String) : Bool :=
  a.labels.any (·.1 = label) || a.waiting.any (·.1 = label)

/-- Adds what a line says. Its statement is read first, then its label takes effect. -/
def addLine (a : Assembly) (line : Nat) (source : SourceLine) : Except ReadError Assembly := do
  let (stmt, scope) ← match source.form with
    | none => .ok (none, a.scope)
    | some form => (form.read line).run a.scope
  let a := { a with scope }
  let a ← match source.label with
    | none => .ok a
    | some label =>
      if a.knows label then .error (.atLine line (.duplicateLabel label))
      else .ok { a with waiting := a.waiting ++ [(label, line)] }
  return match stmt with
    | none => a
    | some stmt => a.append stmt line

/-- Gives waiting labels a last statement, on the line of the first of them. -/
def close (a : Assembly) : Assembly :=
  match a.waiting with
  | [] => a
  | (_, line) :: _ => a.append .nop line

/-- The statement with its jumps resolved. -/
def resolve (labels : List (String × Nat)) (l : Labelled) : Except ReadError Line := do
  let stmt ← l.stmt.mapTargets fun label =>
    match labels.lookup label with
    | some i => .ok (.stmt i)
    | none => .error (.atLine l.line (.unknownLabel label))
  return ⟨stmt, some l.line⟩

/-- The routine that has been read. -/
def finish (a : Assembly) (name : String) : Except ReadError Routine := do
  let a := a.close
  let body ← a.body.mapM (resolve a.labels)
  return { name, params := a.scope.params, body, vars := a.scope.vars }

end Assembly

/-- The line up to a comment. -/
def withoutComment (cs : List Char) : List Char := cs.takeWhile (· ≠ '#')

/-- What one line says; the whole line must follow the grammar. -/
def readLine (line : Nat) (cs : List Char) : Except ReadError SourceLine :=
  match Grammar.line cs with
  | some (source, []) => .ok source
  | some (_, rest) => unreadable (cs.length - rest.length + 1)
  | none => unreadable 1
where
  unreadable (column : Nat) : Except ReadError SourceLine :=
    .error (.atLine line (.unreadable (String.ofList (Text.trim cs)) column))

/-- Reads one numbered line of a text; a blank one says nothing. -/
def step (a : Assembly) (numbered : List Char × Nat) : Except ReadError Assembly :=
  let cs := withoutComment numbered.1
  if cs.all Text.isBlank then .ok a
  else do a.addLine numbered.2 (← readLine numbered.2 cs)

/-- The lines of a text, numbered from one. -/
def numberedLines (text : String) : List (List Char × Nat) := (Text.lines text.toList).zipIdx 1

/-- Reads a routine from a text. -/
def read (text : String) (name : String := "main") : Except ReadError Routine := do
  let a ← (numberedLines text).foldlM step {}
  a.finish name

end Dataflow.Reading
