import ControlLogic.Document
import ControlLogic.Program.Basic

/-!
Programs and tokens as documents.
-/

set_option autoImplicit false
set_option relaxedAutoImplicit false

namespace ControlLogic

def TokenKind.label : TokenKind → String
  | keyword => "Keyword"
  | signalType => "IoType"
  | variableType => "VarType"
  | routine => "Builtin"
  | directive => "Directive"
  | identifier => "Identifier"
  | number => "Number"
  | text => "Str"
  | operator => "Operator"
  | punctuation => "Punct"
  | comment => "Comment"
  | newline => "Newline"
  | endOfText => "Eof"

def SignalType.label : SignalType → String
  | digitalInput => "DigitalInput"
  | digitalOutput => "DigitalOutput"
  | analogInput => "AnalogInput"
  | analogOutput => "AnalogOutput"
  | stringInput => "StringInput"
  | stringOutput => "StringOutput"
  | bufferInput => "BufferInput"

def Trigger.label : Trigger → String
  | push => "Push"
  | release => "Release"
  | change => "Change"
  | socketConnect => "SocketConnect"
  | socketDisconnect => "SocketDisconnect"
  | socketReceive => "SocketReceive"

def BinaryOp.label : BinaryOp → String
  | or => "Or"
  | and => "And"
  | bitOr => "BitOr"
  | bitXor => "BitXor"
  | bitAnd => "BitAnd"
  | eq => "Eq"
  | ne => "Ne"
  | lt => "Lt"
  | gt => "Gt"
  | le => "Le"
  | ge => "Ge"
  | shiftLeft => "Shl"
  | shiftRight => "Shr"
  | add => "Add"
  | sub => "Sub"
  | mul => "Mul"
  | div => "Div"
  | mod => "Mod"
  | pair => "MultiDim"

def UnaryOp.label : UnaryOp → String
  | neg => "Neg"
  | not => "Not"
  | bitNot => "BitNot"

def ReturnKind.label : ReturnKind → String
  | nothing => "Void"
  | integer => "Integer"
  | string => "String"

namespace Document

def ofVariableType : VariableType → Document
  | .integer => text "Integer"
  | .longInteger => text "LongInteger"
  | .signedInteger => text "SignedInteger"
  | .signedLongInteger => text "SignedLongInteger"
  | .string => text "String"
  | .tcpClient => text "TcpClient"
  | .tcpServer => text "TcpServer"
  | .udpSocket => text "UdpSocket"
  | .instanceOf name => tagged "Struct" (text name)

def ofPosition (p : Position) : Document :=
  record [("line", ofNat p.line), ("col", ofNat p.column)]

def ofToken (t : Token) : Document :=
  record [("kind", text t.kind.label), ("text", text t.text), ("line", ofNat t.pos.line),
    ("col", ofNat t.pos.column)]

mutual

def ofExpr : Expr → Document
  | .number n => tagged "Number" (number n)
  | .text s => tagged "Str" (text s)
  | .name id => tagged "Ident" (text id)
  | .binary op left right =>
    tagged "Binary" (record [("op", text op.label), ("left", ofExpr left), ("right", ofExpr right)])
  | .unary op operand =>
    tagged "Unary" (record [("op", text op.label), ("operand", ofExpr operand)])
  | .call name args => tagged "Call" (record [("name", text name), ("args", list (ofExprs args))])
  | .element name index =>
    tagged "Index" (record [("name", text name), ("index", ofExpr index)])
  | .field object field index =>
    tagged "Field"
      (record [("object", text object), ("field", text field), ("index", ofExpr? index)])

def ofExprs : List Expr → List Document
  | [] => []
  | e :: rest => ofExpr e :: ofExprs rest

def ofExpr? : Option Expr → Document
  | none => null
  | some e => ofExpr e

end

mutual

def ofStmtKind : Stmt → Document
  | .branch _ condition thenBody elseBody =>
    tagged "If" (record [("cond", ofExpr condition), ("then_body", list (ofStmts thenBody)),
      ("else_body", ofBody? elseBody)])
  | .count _ counter start finish step body =>
    tagged "For" (record [("var", ofExpr counter), ("start", ofExpr start), ("end", ofExpr finish),
      ("step", ofExpr? step), ("body", list (ofStmts body))])
  | .whileLoop _ condition body =>
    tagged "While" (record [("cond", ofExpr condition), ("body", list (ofStmts body))])
  | .untilLoop _ body condition =>
    tagged "DoUntil" (record [("body", list (ofStmts body)), ("cond", ofExpr condition)])
  | .switch _ subject alternatives runsOn =>
    tagged "Switch" (record [("subject", ofExpr subject),
      ("cases", list (ofAlternatives alternatives)), ("fallthrough", bool runsOn)])
  | .wait _ duration label body =>
    tagged "Wait" (record [("duration", ofExpr duration), ("label", ofOption text label),
      ("body", ofBody? body)])
  | .assign _ target value =>
    tagged "Assign" (record [("target", ofExpr target), ("value", ofExpr value)])
  | .call _ routine => tagged "Call" (ofExpr routine)
  | .returns _ value => tagged "Return" (ofExpr? value)
  | .breaks _ => text "Break"
  | .terminateEvent _ => text "TerminateEvent"
  | .block _ body => tagged "Block" (list (ofStmts body))

def ofStmts : List Stmt → List Document
  | [] => []
  | s :: rest => record [("kind", ofStmtKind s), ("pos", ofPosition s.pos)] :: ofStmts rest

def ofBody? : Option (List Stmt) → Document
  | none => null
  | some body => list (ofStmts body)

def ofAlternatives : List (Alternative Stmt) → List Document
  | [] => []
  | ⟨label, body⟩ :: rest =>
    record [("value", ofExpr? label), ("body", list (ofStmts body))] :: ofAlternatives rest

end

def ofVariableDecl (d : VariableDecl) : Document :=
  record [("ty", ofVariableType d.type), ("name", text d.name),
    ("array_size", ofOption ofNat d.first), ("initial_size", ofOption ofNat d.second),
    ("pos", ofPosition d.pos)]

def ofSignalDecl (d : SignalDecl) : Document :=
  record [("io_type", text d.type.label),
    ("names", ofList (fun (n : SignalName) =>
      record [("name", text n.name), ("array_size", ofOption ofNat n.arraySize),
        ("capacity", ofOption ofNat n.capacity)]) d.names),
    ("pos", ofPosition d.pos)]

def ofValue : Value → Document
  | .number n => tagged "Number" (number n)
  | .text s => tagged "Text" (text s)

def ofHandler (h : Handler) : Document :=
  record [("trigger", text h.trigger.label), ("signal", text h.signal),
    ("locals", ofList ofVariableDecl h.locals), ("body", list (ofStmts h.body)),
    ("pos", ofPosition h.pos)]

def ofFunction (f : FunctionDef) : Document :=
  record [("name", text f.name), ("return_kind", text f.returnKind.label),
    ("return_type", ofOption ofVariableType f.returnType),
    ("params", ofList (fun (p : Parameter) =>
      record [("ty", ofVariableType p.type), ("name", text p.name), ("by_ref", bool p.byRef),
        ("is_array", bool p.isArray)]) f.params),
    ("locals", ofList ofVariableDecl f.locals), ("body", list (ofStmts f.body)),
    ("pos", ofPosition f.pos)]

def ofProgram (p : Program) : Document :=
  record [("symbol_name", ofOption text p.symbolName), ("help_text", text p.helpText),
    ("directives", ofList (fun (d : Directive) =>
      record [("name", text d.name), ("args", text d.args), ("pos", ofPosition d.pos)])
      p.directives),
    ("constants", ofList (fun (c : Constant) =>
      record [("name", text c.name), ("value", ofValue c.value), ("pos", ofPosition c.pos)])
      p.constants),
    ("io", ofList ofSignalDecl p.signals), ("globals", ofList ofVariableDecl p.globals),
    ("structs", ofList (fun (s : StructureDef) =>
      record [("name", text s.name), ("fields", ofList ofVariableDecl s.fields),
        ("pos", ofPosition s.pos)]) p.structures),
    ("events", ofList ofHandler p.handlers), ("functions", ofList ofFunction p.functions),
    ("main", ofOption ofFunction p.main)]

end Document

end ControlLogic
