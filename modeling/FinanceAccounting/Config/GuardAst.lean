import Mathlib.Data.Rat.Defs
import Mathlib.Data.List.Sort

/-! # The restricted expression language

`validate_guard_expression` parses a guard or control expression as Python and accepts the trees
that `_validate_node` finds no fault with. -/

namespace FinanceAccounting.Config

/-! ### Syntax trees -/

inductive UnaryOp where
  | not
  | usub
  | uadd
  | invert
deriving DecidableEq, Repr

namespace UnaryOp

/-- The name of the node class. -/
def typeName : UnaryOp → String
  | not => "Not"
  | usub => "USub"
  | uadd => "UAdd"
  | invert => "Invert"

end UnaryOp

/-- The arithmetic operators, and any other by the name of its node class. -/
inductive BinaryOp where
  | add
  | sub
  | mult
  | div
  | other (typeName : String)
deriving DecidableEq, Repr

inductive CompareOp where
  | eq
  | notEq
  | lt
  | ltE
  | gt
  | gtE
  | is
  | isNot
  | isIn
  | notIn
deriving DecidableEq, Repr

/-- A number of type `float`: its exact value, unless it is an infinity or not a number. -/
inductive PyFloat where
  | finite (q : ℚ)
  | infinity (negative : Bool)
  | nan
deriving DecidableEq

/-- The value of a literal; `other` has a type that guards may not use. -/
inductive Constant where
  | none
  | bool (b : Bool)
  | int (n : ℕ)
  | float (x : PyFloat)
  | str (s : String)
  | other (typeName : String)
deriving DecidableEq

/-- The trees of `ast.parse(expression, mode="eval")`. -/
inductive Ast where
  | boolOp (isAnd : Bool) (values : List Ast)
  | unaryOp (op : UnaryOp) (operand : Ast)
  | compare (left : Ast) (ops : List CompareOp) (comparators : List Ast)
  | binOp (left : Ast) (op : BinaryOp) (right : Ast)
  | call (func : Ast) (args keywords : List Ast)
  | attr (value : Ast) (field : String)
  | name (id : String)
  | constant (value : Constant)
  | list (elts : List Ast)
  | tuple (elts : List Ast)
  | ifExp (test body orelse : Ast)
  | lambda
  | other (typeName : String)

/-! ### Validation -/

def allowedFunctions : List String := ["abs", "len", "check_credit_limit"]

/-- `ALLOWED_CONTEXT_ROOTS`, sorted. -/
def allowedContextRoots : List String := ["contract", "event", "party", "payload"]

def allowedNames : List String := ["True", "False", "None"] ++ allowedContextRoots

structure GuardAstError where
  expression : String
  message : String
  nodeType : String := ""
deriving DecidableEq, Repr

namespace Ast

/-- The name of the node class. -/
def typeName : Ast → String
  | boolOp _ _ => "BoolOp"
  | unaryOp _ _ => "UnaryOp"
  | compare _ _ _ => "Compare"
  | binOp _ _ _ => "BinOp"
  | call _ _ _ => "Call"
  | attr _ _ => "Attribute"
  | name _ => "Name"
  | constant _ => "Constant"
  | list _ => "List"
  | tuple _ => "Tuple"
  | ifExp _ _ _ => "IfExp"
  | lambda => "Lambda"
  | other typeName => typeName

/-- `_get_name`. -/
def getName : Ast → String
  | name id => id
  | attr value field => getName value ++ "." ++ field
  | node => node.typeName

/-- `isinstance(node, ast.Name) and node.id in ids`. -/
def isNameIn (ids : List String) : Ast → Bool
  | name id => ids.contains id
  | _ => false

mutual

/-- `_validate_node`: the errors that it appends. -/
def validateNode (expression : String) : Ast → List GuardAstError
  | boolOp _ values => validateNodes expression values
  | unaryOp op operand =>
      (if op = .not then [] else
        [⟨expression, "Disallowed unary operator: " ++ op.typeName, op.typeName⟩]) ++
        validateNode expression operand
  | compare left _ comparators =>
      validateNode expression left ++ validateNodes expression comparators
  | binOp left op right =>
      match op with
      | .other typeName =>
          [⟨expression, "Disallowed binary operator: " ++ typeName, typeName⟩]
      | _ => validateNode expression left ++ validateNode expression right
  | call func args keywords =>
      if func.isNameIn allowedFunctions then
        validateNodes expression args ++ validateNodes expression keywords
      else [⟨expression, "Disallowed function call: " ++ func.getName, "Call"⟩]
  | attr value field =>
      if value.isNameIn allowedContextRoots then []
      else
        [⟨expression, "Disallowed attribute access: " ++ (attr value field).getName ++
          ". Only " ++ ", ".intercalate allowedContextRoots ++ ".field_name is allowed.",
          "Attribute"⟩]
  | name id =>
      if allowedNames.contains id then []
      else [⟨expression, "Disallowed name: " ++ id, "Name"⟩]
  | constant (.other typeName) =>
      [⟨expression, "Disallowed constant type: " ++ typeName, "Constant"⟩]
  | constant _ => []
  | list elts => validateNodes expression elts
  | tuple elts => validateNodes expression elts
  | ifExp test body orelse =>
      validateNode expression test ++ validateNode expression body ++
        validateNode expression orelse
  | lambda => [⟨expression, "Lambda expressions are not allowed", "Lambda"⟩]
  | other typeName => [⟨expression, "Disallowed AST node type: " ++ typeName, typeName⟩]

def validateNodes (expression : String) : List Ast → List GuardAstError
  | [] => []
  | node :: nodes => validateNode expression node ++ validateNodes expression nodes

end

end Ast

/-- `ast.parse` in mode `eval`: the tree of a text, or the message of the syntax error. -/
abbrev Parser := String → Except String Ast

/-- `validate_guard_expression`. -/
def validateGuardExpression (parse : Parser) (expression : String) : List GuardAstError :=
  match parse expression with
  | .error msg => [{ expression, message := "Syntax error: " ++ msg }]
  | .ok tree => tree.validateNode expression

end FinanceAccounting.Config
