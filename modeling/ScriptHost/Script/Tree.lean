import ScriptHost.Engine.Value
import ScriptHost.Pattern.Tree
/-!
# Script trees

The grammar of scripts as data: expressions, patterns, statements, functions and classes.
-/

namespace ScriptHost

/-- A place in the text of a script. -/
structure Place where
  /-- The line, counted from one. -/
  line : Nat := 1
  /-- The column of the last blank before the place, or one. -/
  column : Nat := 1
deriving DecidableEq, Inhabited, Repr

namespace Script

/-- Operators with one operand. -/
inductive UnaryOp where
  | plus | minus | not | bitNot | void | typeOf
deriving DecidableEq, Inhabited, Repr

/-- Operators with two operands, both always evaluated. -/
inductive BinaryOp where
  | add | sub | mul | div | mod | pow
  | shl | sar | shr | bitAnd | bitOr | bitXor
  | lt | le | gt | ge | eq | ne | strictEq | strictNe
  | instanceOf | isIn
deriving DecidableEq, Inhabited, Repr

/-- Operators that may leave their second operand alone. -/
inductive LogicalOp where
  | and | or | coalesce
deriving DecidableEq, Inhabited, Repr

/-- How a name is declared. -/
inductive DeclKind where
  | var | lexical | const
deriving DecidableEq, Inhabited, Repr

/-- What calling a function does with its body. -/
inductive BodyKind where
  | plain | generator | async | asyncGenerator
deriving DecidableEq, Inhabited, Repr

/-- Where a function stands, which decides what it may refer to and whether it can be
constructed. -/
inductive FuncRole where
  | ordinary | arrow | method | getter | setter | baseConstructor | derivedConstructor
  | initializer
deriving DecidableEq, Inhabited, Repr

/-- Everything about a function but its parameters and body. -/
structure FuncInfo where
  name : Text := Text.empty
  body : BodyKind := .plain
  role : FuncRole := .ordinary
  strict : Bool := false
  /-- Whether the parameters are plain names, so that no two of them need evaluating. -/
  simpleParams : Bool := true
  /-- The text of the function. -/
  source : Text := Text.empty
  /-- Whether `eval` is called by name in it, so that names may be declared while it runs. -/
  callsEval : Bool := false
  place : Place := {}
deriving Inhabited

/-- What a member of an object or class is. -/
inductive MemberKind where
  /-- A property with a value; in a class, a field. -/
  | property
  /-- A name that stands for itself. -/
  | shorthand
  | method
  | getter
  | setter
  /-- The prototype, given by `__proto__: e`. -/
  | proto
  | spread
  /-- A block that runs when the class is made. -/
  | staticBlock
deriving DecidableEq, Inhabited, Repr

mutual

/-- Expressions. -/
inductive Expr where
  /-- No expression, where one may be left out. -/
  | absent
  | value (v : Value)
  | template (strings : List Text) (parts : List Expr)
  | tagged (tag : Expr) (cooked : List (Option Text)) (raw : List Text) (parts : List Expr)
      (place : Place)
  /-- A regular expression: its text and what it says. -/
  | regexp (body : Text) (pattern : Pattern)
  | ident (name : Text)
  | this
  | newTarget
  | importMeta
  | array (items : List Expr)
  | spread (e : Expr)
  | object (members : List Member)
  | func (info : FuncInfo) (params : List Target) (body : List Stmt)
  | cls (name : Text) (heritage constructor : Expr) (elements : List Member) (source : Text)
  | unary (op : UnaryOp) (e : Expr)
  | delete (e : Expr)
  | update (increment before : Bool) (e : Expr)
  | binary (op : BinaryOp) (a b : Expr)
  | logical (op : LogicalOp) (a b : Expr)
  | cond (c a b : Expr)
  | assign (target : Target) (e : Expr)
  | compound (op : BinaryOp) (target e : Expr)
  | logicalAssign (op : LogicalOp) (target e : Expr)
  | member (obj : Expr) (name : Text)
  | element (obj key : Expr)
  | privateMember (obj : Expr) (name : Text)
  | superMember (name : Text)
  | superElement (key : Expr)
  | call (f : Expr) (args : List Expr) (place : Place)
  | construct (f : Expr) (args : List Expr) (place : Place)
  | superCall (args : List Expr) (place : Place)
  /-- The operand of `?.`: nullish ends the innermost chain. -/
  | maybe (e : Expr)
  /-- A whole chain with `?.` in it. -/
  | chain (e : Expr)
  | sequence (a b : Expr)
  | yield (e : Expr)
  | yieldAll (e : Expr)
  | await (e : Expr)
  | importCall (e : Expr)
  | privateIn (name : Text) (e : Expr)
  /-- The name of a private member, where the key of a member stands. -/
  | privateName (name : Text)
  | paren (e : Expr)

/-- Members of objects and classes.  A key that is computed stands in parentheses. -/
inductive Member where
  | mk (kind : MemberKind) (isStatic : Bool) (key value : Expr)

/-- Targets of bindings and assignments. -/
inductive Target where
  | name (n : Text)
  | expr (e : Expr)
  | array (items : List Target)
  | object (members : List Target)
  /-- Nothing, at a place of an array pattern that is left out. -/
  | hole
  | withDefault (p : Target) (e : Expr)
  | rest (p : Target)
  /-- A member of an object pattern. -/
  | keyed (key : Expr) (p : Target)

/-- Statements. -/
inductive Stmt where
  | empty
  | expr (e : Expr)
  /-- Declarations; a pattern with a default is one with an initial value. -/
  | declare (kind : DeclKind) (items : List Target)
  | func (f : Expr)
  | cls (c : Expr)
  | block (body : List Stmt)
  | ifElse (c : Expr) (a b : Stmt)
  | loop (init : Stmt) (test update : Expr) (body : Stmt)
  | whileLoop (test : Expr) (body : Stmt)
  | doWhile (body : Stmt) (test : Expr)
  | forIn (kind : Option DeclKind) (target : Target) (e : Expr) (body : Stmt)
  | forOf (isAwait : Bool) (kind : Option DeclKind) (target : Target) (e : Expr) (body : Stmt)
  | ret (e : Expr)
  | brk (label : Option Text)
  | cont (label : Option Text)
  | throw (e : Expr)
  /-- A body with a handler, if `hasHandler`, whose parameter may be a hole, and with a finalizer,
  if `hasFinalizer`. -/
  | attempt (body : List Stmt) (hasHandler : Bool) (param : Target) (handler : List Stmt)
      (hasFinalizer : Bool) (finalizer : List Stmt)
  | choose (e : Expr) (cases : List Stmt)
  /-- One case of a choice; without an expression, the default. -/
  | choice (test : Expr) (body : List Stmt)
  | labelled (label : Text) (body : Stmt)
  | within (e : Expr) (body : Stmt)
  /-- An import of names from a module: its specifier and the pairs of exported and local names;
  `whole` is the local name of the module itself. -/
  | importFrom (spec : Text) (names : List (Text × Text)) (whole : Option Text)
  /-- Names exported under other names. -/
  | exportNames (names : List (Text × Text))
  | exportFrom (spec : Text) (names : List (Text × Text)) (all : Bool)
  | exportDecl (s : Stmt)
  | exportDefault (e : Expr)

end

instance : Inhabited Expr := ⟨.absent⟩
instance : Inhabited Target := ⟨.hole⟩
instance : Inhabited Stmt := ⟨.empty⟩
instance : Inhabited Member := ⟨.mk default false .absent .absent⟩

/-- Whether an expression is left out. -/
def Expr.isAbsent : Expr → Bool
  | absent => true
  | _ => false

/-- Whether a target is a plain name. -/
def Target.isName : Target → Bool
  | name _ => true
  | _ => false

/-- What a function expression says about its function. -/
def Expr.funcInfo : Expr → FuncInfo
  | func i _ _ => i
  | _ => default

/-- A function expression with other information about its function. -/
def Expr.withFuncInfo (i : FuncInfo) : Expr → Expr
  | func _ ps b => func i ps b
  | e => e

/-- A whole script or module. -/
structure Program where
  body : List Stmt
  strict : Bool
  isModule : Bool
  /-- Whether `await` stands outside every function. -/
  hasAwait : Bool := false

end Script

end ScriptHost
