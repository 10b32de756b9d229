import Dataflow.Reading.Form
import Dataflow.Reading.Reader
/-!
# The grammar of a line

One reader for every rule. A rule with alternatives takes the first that succeeds, so an alternative that
can be the beginning of another one stands after it.
-/
namespace Dataflow.Reading.Grammar

open Reader

/-! ## Tokens -/

def isLetter (c : Char) : Bool :=
  ('a' ≤ c && c ≤ 'z') || ('A' ≤ c && c ≤ 'Z') || c = '_' || c = '$'

def isDigit (c : Char) : Bool := '0' ≤ c && c ≤ '9'

def isNameChar (c : Char) : Bool := isLetter c || isDigit c

def isSpace (c : Char) : Bool := c = ' ' || c = '\t'

/-- Spaces and tabs, or nothing. -/
def blanks : Reader Unit := fun cs => some ((), cs.dropWhile isSpace)

/-- At least one space or tab. -/
def gap : Reader Unit := run isSpace isSpace *> pure ()

/-- A word that does not go on. -/
def keyword (word : String) : Reader Unit := fun cs =>
  match literal word cs with
  | some ((), c :: rest) => if Text.isWordChar c then none else some ((), c :: rest)
  | other => other

def name : Reader String := run isLetter isNameChar

/-- Methods may be qualified, and initialisers stand in angle brackets. -/
def methodName : Reader String :=
  run isLetter fun c => isNameChar c || c = '.' || c = '<' || c = '>'

/-- Types may be qualified, and every pair of brackets makes an array type. -/
def typeName : Reader String := do
  let base ← run isLetter fun c => isNameChar c || c = '.'
  let brackets ← star (literal "[]")
  return base ++ String.join (brackets.map fun _ => "[]")

def numeral : Reader Numeral := do
  let sign ← optional (literal "-")
  return ⟨sign.isSome, ← run isDigit isDigit⟩

/-- A punctuation mark with the blanks on both sides of it. -/
def mark (s : String) : Reader Unit := blanks *> literal s *> blanks

/-- Operators by their symbols, those first that go on longest. -/
def binOp : Reader BinOp :=
  choice <| List.map (fun op => literal op.symbol *> pure op)
    [.shift .rightZero, .shift .right, .shift .left, .compare .eq, .compare .ne, .compare .le,
     .compare .ge, .compare .lt, .compare .gt, .arith .add, .arith .sub, .arith .mul, .arith .div,
     .arith .rem, .bits .and, .bits .or, .bits .xor]

def compareOp : Reader CompareOp :=
  choice <| List.map (fun op => literal (BinOp.compare op).symbol *> pure op)
    [.eq, .ne, .le, .ge, .lt, .gt]

def atom : Reader Atom := Atom.number <$> numeral <|> Atom.name <$> name

/-! ## Declarations -/

def paramDecl : Reader Form := do
  keyword "param"; gap
  let type ← typeName
  gap
  return .param type (← name)

def nameList : Reader (List String) := separated (mark ",") name

def varDecl : Reader Form := do
  let type ← typeName
  gap
  return .declare type (← nameList)

/-! ## Jumps -/

/-- The tail of every jump. -/
def jump : Reader String := do
  keyword "goto"; gap
  name

def condition : Reader (Atom × CompareOp × Atom) := do
  let left ← atom
  blanks
  let op ← compareOp
  blanks
  return (left, op, ← atom)

def ifStmt : Reader Form := do
  keyword "if"; mark "("
  let (left, op, right) ← condition
  mark ")"
  return .branch left op right (← jump)

def gotoStmt : Reader Form := Form.goto <$> jump

def caseArm : Reader (Numeral × String) := do
  keyword "case"; gap
  let n ← numeral
  mark ":"
  let label ← jump
  mark ";"
  return (n, label)

def defaultArm : Reader String := do
  keyword "default"; mark ":"
  let label ← jump
  blanks; discard (optional (literal ";")); blanks
  return label

def switchStmt : Reader Form := do
  keyword "switch"; mark "("
  let scrutinee ← name
  mark ")"; literal "\x7b"; blanks
  let arms ← star caseArm
  let default ← optional defaultArm
  blanks; literal "\x7d"
  return .switch scrutinee arms default

def returnValue : Reader Atom := gap *> atom

def returnStmt : Reader Form := do
  keyword "return"
  return .return (← optional returnValue)

def nopStmt : Reader Form := do
  keyword "nop"; blanks
  return .nop

/-! ## Calls and assignments -/

def argList : Reader (List Atom) := separated (mark ",") atom

def invokeResult : Reader String := name <* mark "="

def invokeExp : Reader (String × List Atom) := do
  keyword "invoke"; gap
  let method ← methodName
  mark "("
  let args ← optional argList
  blanks; literal ")"
  return (method, args.getD [])

def invokeStmt : Reader Form := do
  let result ← optional invokeResult
  let (method, args) ← invokeExp
  return .invoke result method args

def element : Reader Place := do
  let array ← name
  mark "["
  let index ← atom
  blanks; literal "]"
  return .element array index

def field : Reader Place := do
  let base ← name
  literal "."
  return .field base (← name)

def place : Reader Place := element <|> field <|> Place.name <$> name

def newExp : Reader Source := do
  keyword "new"; gap
  return .allocate (← typeName)

def castExp : Reader Source := do
  literal "("; blanks
  let type ← typeName
  mark ")"
  return .cast type (← atom)

def binaryExp : Reader Source := do
  let left ← atom
  blanks
  let op ← binOp
  blanks
  return .binary left op (← atom)

def unaryExp : Reader Source := do
  literal "-"; blanks
  return .negate (← name)

def source : Reader Source :=
  newExp <|> castExp <|> binaryExp <|> unaryExp <|> Source.place <$> element <|>
    Source.place <$> field <|> Source.number <$> numeral <|> (Source.place ∘ Place.name) <$> name

def assignStmt : Reader Form := do
  let target ← place
  mark "="
  return .assign target (← source)

/-! ## Lines -/

def statement : Reader Form :=
  paramDecl <|> ifStmt <|> switchStmt <|> gotoStmt <|> returnStmt <|> nopStmt <|> invokeStmt <|>
    assignStmt <|> varDecl

def labelDef : Reader String := name <* mark ":"

def line : Reader SourceLine := do
  blanks
  let label ← optional labelDef
  let form ← optional statement
  blanks
  return ⟨label, form⟩

/-! ## The rules by name -/

/-- A reader of which only the extent counts. -/
def extent {α : Type} (r : Reader α) : Reader Unit := r *> pure ()

def rules : List (String × Reader Unit) :=
  [("line", extent line), ("label_def", extent labelDef), ("statement", extent statement),
   ("param_decl", extent paramDecl), ("var_decl", extent varDecl), ("ident_list", extent nameList),
   ("if_stmt", extent ifStmt), ("condition", extent condition), ("goto_stmt", extent gotoStmt),
   ("switch_stmt", extent switchStmt), ("case_arm", extent caseArm),
   ("default_arm", extent defaultArm), ("return_stmt", extent returnStmt),
   ("return_value", extent returnValue), ("nop_stmt", extent nopStmt),
   ("invoke_stmt", extent invokeStmt), ("invoke_result", extent invokeResult),
   ("invoke_exp", extent invokeExp), ("arg_list", extent argList),
   ("assign_stmt", extent assignStmt), ("lvalue", extent place), ("rvalue", extent source),
   ("binary_exp", extent binaryExp), ("unary_exp", extent unaryExp), ("new_exp", extent newExp),
   ("cast_exp", extent castExp), ("array_access", extent element), ("field_access", extent field),
   ("operand", extent atom), ("bin_op", extent binOp), ("cond_op", extent compareOp),
   ("KW_PARAM", keyword "param"), ("KW_IF", keyword "if"), ("KW_GOTO", keyword "goto"),
   ("KW_SWITCH", keyword "switch"), ("KW_CASE", keyword "case"), ("KW_DEFAULT", keyword "default"),
   ("KW_RETURN", keyword "return"), ("KW_NOP", keyword "nop"), ("KW_INVOKE", keyword "invoke"),
   ("KW_NEW", keyword "new"), ("label", extent name), ("ident", extent name),
   ("method_name", extent methodName), ("type_name", extent typeName), ("int_lit", extent numeral),
   ("__", gap), ("_", blanks)]

def rule? (ruleName : String) : Option (Reader Unit) := rules.lookup ruleName

end Dataflow.Reading.Grammar
