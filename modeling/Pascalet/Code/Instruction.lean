import Pascalet.Operator
import Pascalet.Text.Quoted

namespace Pascalet

inductive Opcode where
  | start
  | stop
  | reserve
  | constant
  | load
  | store
  | arithmetic (operator : Operator)
  | negate
  | read
  | write
  | compare (relation : Relation)
  | jumpIfZero
  | jump
  | pushReturn
  | call
  | ret
  | pass
  | release
  | other (name : String)
deriving DecidableEq, Repr

namespace Opcode

def mnemonic : Opcode → String
  | start => "INPP"
  | stop => "PARA"
  | reserve => "ALME"
  | constant => "CRCT"
  | load => "CRVL"
  | store => "ARMZ"
  | arithmetic .add => "SOMA"
  | arithmetic .subtract => "SUBT"
  | arithmetic .multiply => "MULT"
  | arithmetic .divide => "DIVI"
  | negate => "INVE"
  | read => "LEIT"
  | write => "IMPR"
  | compare .equal => "CMIG"
  | compare .notEqual => "CMDG"
  | compare .atLeast => "CMAI"
  | compare .atMost => "CPMI"
  | compare .greater => "CMMA"
  | compare .less => "CMME"
  | jumpIfZero => "DSVF"
  | jump => "DSVI"
  | pushReturn => "PUSHER"
  | call => "CHPR"
  | ret => "RTPR"
  | pass => "PARAM"
  | release => "DESM"
  | other name => name

def all : List Opcode :=
  [start, stop, reserve, constant, load, store, arithmetic .add, arithmetic .subtract,
    arithmetic .multiply, arithmetic .divide, negate, read, write, compare .equal,
    compare .notEqual, compare .atLeast, compare .atMost, compare .greater, compare .less,
    jumpIfZero, jump, pushReturn, call, ret, pass, release]

def ofMnemonic? (name : String) : Option Opcode :=
  all.find? (·.mnemonic == name)

def ofName (name : String) : Opcode :=
  (ofMnemonic? name).getD (other name)

inductive Operand where
  | absent
  | integer
  | numeral
deriving DecidableEq

def operand : Opcode → Operand
  | reserve | load | store | jumpIfZero | jump | pushReturn | call | pass | release => .integer
  | constant => .numeral
  | _ => .absent

def hasAddress : Opcode → Bool
  | load | store | pass => true
  | _ => false

end Opcode

inductive Argument where
  | absent
  | integer (value : Int)
  | text (value : String)
deriving DecidableEq, Repr

inductive ArgumentKind where
  | absent
  | integer
  | text
deriving DecidableEq, Repr

namespace Argument

def kind : Argument → ArgumentKind
  | absent => .absent
  | integer _ => .integer
  | text _ => .text

def integer? : Argument → Option Int
  | integer value => some value
  | _ => none

def quoted : Argument → String
  | absent => "None"
  | integer value => toString value
  | text value => Text.quote value

def plain? : Argument → Option String
  | absent => none
  | integer value => some (toString value)
  | text value => some value

end Argument

structure Instruction where
  opcode : Opcode
  argument : Argument := .absent
deriving DecidableEq, Repr

def Instruction.text (instruction : Instruction) : String :=
  match instruction.argument.plain? with
  | some argument => instruction.opcode.mnemonic ++ " " ++ argument
  | none => instruction.opcode.mnemonic

end Pascalet
