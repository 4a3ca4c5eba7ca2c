import ControlLogic.Token.Basic
import ControlLogic.Text.Ascii
import ControlLogic.Value

/-!
Programs: declarations of signals, variables and structures, event handlers, functions, and the
statements and expressions they are made of.
-/

set_option autoImplicit false
set_option relaxedAutoImplicit false

namespace ControlLogic

/-- Types of signals. -/
inductive SignalType where
  | digitalInput
  | digitalOutput
  | analogInput
  | analogOutput
  | stringInput
  | stringOutput
  | bufferInput
  deriving DecidableEq, Repr, Inhabited

namespace SignalType

def ofWord? (word : String) : Option SignalType :=
  match Text.upper word with
  | "DIGITAL_INPUT" => some digitalInput
  | "DIGITAL_OUTPUT" => some digitalOutput
  | "ANALOG_INPUT" => some analogInput
  | "ANALOG_OUTPUT" => some analogOutput
  | "STRING_INPUT" => some stringInput
  | "STRING_OUTPUT" => some stringOutput
  | "BUFFER_INPUT" => some bufferInput
  | _ => none

def isSerial : SignalType → Bool
  | stringInput | stringOutput | bufferInput => true
  | digitalInput | digitalOutput | analogInput | analogOutput => false

def isInput : SignalType → Bool
  | digitalInput | analogInput | stringInput | bufferInput => true
  | digitalOutput | analogOutput | stringOutput => false

end SignalType

/-- Types of variables, fields and parameters. -/
inductive VariableType where
  | integer
  | longInteger
  | signedInteger
  | signedLongInteger
  | string
  | tcpClient
  | tcpServer
  | udpSocket
  | instanceOf (name : String)
  deriving DecidableEq, Repr, Inhabited

namespace VariableType

def ofWord? (word : String) : Option VariableType :=
  match Text.upper word with
  | "INTEGER" => some integer
  | "LONG_INTEGER" => some longInteger
  | "SIGNED_INTEGER" => some signedInteger
  | "SIGNED_LONG_INTEGER" => some signedLongInteger
  | "STRING" => some string
  | "TCP_CLIENT" => some tcpClient
  | "TCP_SERVER" => some tcpServer
  | "UDP_SOCKET" => some udpSocket
  | _ => none

def isSocket : VariableType → Bool
  | tcpClient | tcpServer | udpSocket => true
  | _ => false

def width? : VariableType → Option Number.Width
  | integer => some .unsigned16
  | longInteger => some .unsigned32
  | signedInteger => some .signed16
  | signedLongInteger => some .signed32
  | _ => none

end VariableType

/-- What an event handler waits for. -/
inductive Trigger where
  | push
  | release
  | change
  | socketConnect
  | socketDisconnect
  | socketReceive
  deriving DecidableEq, Repr, Inhabited

namespace Trigger

def ofWord? (word : String) : Option Trigger :=
  match Text.upper word with
  | "PUSH" => some push
  | "RELEASE" => some release
  | "CHANGE" => some change
  | "SOCKETCONNECT" => some socketConnect
  | "SOCKETDISCONNECT" => some socketDisconnect
  | "SOCKETRECEIVE" => some socketReceive
  | _ => none

def word : Trigger → String
  | push => "PUSH"
  | release => "RELEASE"
  | change => "CHANGE"
  | socketConnect => "SOCKETCONNECT"
  | socketDisconnect => "SOCKETDISCONNECT"
  | socketReceive => "SOCKETRECEIVE"

end Trigger

/-- Operators between two expressions. `pair` joins the two indices of a grid element. -/
inductive BinaryOp where
  | or
  | and
  | bitOr
  | bitXor
  | bitAnd
  | eq
  | ne
  | lt
  | gt
  | le
  | ge
  | shiftLeft
  | shiftRight
  | add
  | sub
  | mul
  | div
  | mod
  | pair
  deriving DecidableEq, Repr, Inhabited

def BinaryOp.symbol : BinaryOp → String
  | or => "||"
  | and => "&&"
  | bitOr => "|"
  | bitXor => "^"
  | bitAnd => "&"
  | eq => "="
  | ne => "<>"
  | lt => "<"
  | gt => ">"
  | le => "<="
  | ge => ">="
  | shiftLeft => "<<"
  | shiftRight => ">>"
  | add => "+"
  | sub => "-"
  | mul => "*"
  | div => "/"
  | mod => "%"
  | pair => "]["

/-- Operators before an expression. -/
inductive UnaryOp where
  | neg
  | not
  | bitNot
  deriving DecidableEq, Repr, Inhabited

/-- Expressions. -/
inductive Expr where
  | number (n : Int)
  | text (s : String)
  | name (id : String)
  | binary (op : BinaryOp) (left right : Expr)
  | unary (op : UnaryOp) (operand : Expr)
  | call (name : String) (args : List Expr)
  | element (name : String) (index : Expr)
  | field (object field : String) (index : Option Expr)
  deriving Repr, Inhabited

def Expr.isPlace : Expr → Bool
  | name _ | element _ _ | field _ _ _ => true
  | number _ | text _ | binary _ _ _ | unary _ _ | call _ _ => false

/-- A labelled alternative of a switch; the default has no label. -/
structure Alternative (σ : Type) where
  label : Option Expr
  body : List σ
  deriving Repr, Inhabited

/--
Statements, each with the place it starts at. A wait without a body delays what follows it; a wait
with a body puts the body off. A switch with `runsOn` goes on through the alternatives after the one
selected.
-/
inductive Stmt where
  | branch (pos : Position) (condition : Expr) (thenBody : List Stmt)
      (elseBody : Option (List Stmt))
  | count (pos : Position) (counter start finish : Expr) (step : Option Expr) (body : List Stmt)
  | whileLoop (pos : Position) (condition : Expr) (body : List Stmt)
  | untilLoop (pos : Position) (body : List Stmt) (condition : Expr)
  | switch (pos : Position) (subject : Expr) (alternatives : List (Alternative Stmt))
      (runsOn : Bool)
  | wait (pos : Position) (duration : Expr) (label : Option String) (body : Option (List Stmt))
  | assign (pos : Position) (target value : Expr)
  | call (pos : Position) (routine : Expr)
  | returns (pos : Position) (value : Option Expr)
  | breaks (pos : Position)
  | terminateEvent (pos : Position)
  | block (pos : Position) (body : List Stmt)
  deriving Repr, Inhabited

def Stmt.pos : Stmt → Position
  | branch p _ _ _ | count p _ _ _ _ _ | whileLoop p _ _ | untilLoop p _ _ | switch p _ _ _
  | wait p _ _ _ | assign p _ _ | call p _ | returns p _ | breaks p | terminateEvent p
  | block p _ => p

/-- A directive the program carries: its name in upper case without the number sign, and the tokens
after it on its line, joined by blanks. -/
structure Directive where
  name : String
  args : String
  pos : Position
  deriving DecidableEq, Repr, Inhabited

/-- A named constant. -/
structure Constant where
  name : String
  value : Value
  pos : Position
  deriving DecidableEq, Repr, Inhabited

/-- A name in a signal declaration: the number of signals if it is an array, and for serial signals
the number of characters if one is given. -/
structure SignalName where
  name : String
  arraySize : Option Nat
  capacity : Option Nat
  deriving DecidableEq, Repr, Inhabited

/-- A declaration of signals of one type. -/
structure SignalDecl where
  type : SignalType
  names : List SignalName
  pos : Position
  deriving DecidableEq, Repr, Inhabited

def elementName (name : String) (i : Nat) : String :=
  name ++ "[" ++ Number.decimal (Int.ofNat i) ++ "]"

/-- The signals a name declares: itself, or the elements of an array counted from one. -/
def SignalName.expand (entry : SignalName) : List String :=
  match entry.arraySize with
  | some n => (List.range n).map fun i => elementName entry.name (i + 1)
  | none => [entry.name]

/-- The names of the signals a declaration declares, in order. -/
def SignalDecl.signals (decl : SignalDecl) : List String :=
  decl.names.flatMap SignalName.expand

/-- A declaration of a variable or a field, with the numbers in its first and second brackets. -/
structure VariableDecl where
  type : VariableType
  name : String
  first : Option Nat
  second : Option Nat
  pos : Position
  deriving DecidableEq, Repr, Inhabited

/-- A structure and its fields. -/
structure StructureDef where
  name : String
  fields : List VariableDecl
  pos : Position
  deriving DecidableEq, Repr, Inhabited

/-- A handler of one signal or socket. -/
structure Handler where
  trigger : Trigger
  signal : String
  locals : List VariableDecl
  body : List Stmt
  pos : Position
  deriving Repr, Inhabited

/-- What a function hands back. -/
inductive ReturnKind where
  | nothing
  | integer
  | string
  deriving DecidableEq, Repr, Inhabited

/-- A parameter of a function. -/
structure Parameter where
  type : VariableType
  name : String
  byRef : Bool
  isArray : Bool
  deriving DecidableEq, Repr, Inhabited

/-- A function. -/
structure FunctionDef where
  name : String
  returnKind : ReturnKind
  returnType : Option VariableType
  params : List Parameter
  locals : List VariableDecl
  body : List Stmt
  pos : Position
  deriving Repr, Inhabited

def FunctionDef.isMain (f : FunctionDef) : Bool :=
  Text.sameWord f.name "main"

/-- A whole program. -/
structure Program where
  symbolName : Option String := none
  helpText : String := ""
  directives : List Directive := []
  constants : List Constant := []
  signals : List SignalDecl := []
  globals : List VariableDecl := []
  structures : List StructureDef := []
  handlers : List Handler := []
  functions : List FunctionDef := []
  main : Option FunctionDef := none
  deriving Repr, Inhabited

namespace Program

def structure? (p : Program) (name : String) : Option StructureDef :=
  p.structures.find? (Text.sameWord ·.name name)

def function? (p : Program) (name : String) : Option FunctionDef :=
  p.functions.find? (Text.sameWord ·.name name)

def hasDirective (p : Program) (name : String) : Bool :=
  p.directives.any (Text.sameWord ·.name name)

end Program

end ControlLogic
