import Pascalet.Compiler.Draft

namespace Pascalet

inductive NameList where
  | variableNames
  | parameterNames
  | readTargets
  | arguments (name : Token) (procedure : Symbol)

inductive Goal where
  | expect (kind : TokenKind) (expectation : Expectation)
  | programName
  | optionalSemicolon
  | declarations
  | endOfProgram
  | names (earlier : List Token) (use : NameList)
  | namesTail (names : List Token) (use : NameList)
  | variableType (names : List Token)
  | parameterType (names : List Token)
  | declareVariables (names : List Token) (type : DataType)
  | declareParameters (names : List Token) (type : DataType)
  /-- Further procedures of a group; `skips` are the jumps over the earlier ones. -/
  | procedures (skips : List Nat)
  | procedureName
  | heading (name : Token)
  | parametersTail
  | locals
  | endOfProcedure
  | statements
  | statementsTail
  | afterName (name : Token)
  | assignment (target : Token)
  | readInto (names : List Token)
  | perform (name : Token) (procedure : Symbol) (arguments : List Token)
  | writeTail
  | relation
  | thenBranch
  /-- Behind the first branch, which the jump at `skip` leaps over. -/
  | elseBranch (skip : Nat)
  | endOfIf (leave : Nat)
  | loopBody (start : Nat)
  | endOfLoop (start leave : Nat)
  | expression
  | expressionTail
  | term
  | termTail
  | factor
  | load (name : Token)
  | emit (opcode : Opcode) (argument : Argument)

inductive Verdict where
  | pass (draft : Draft)
  | take (goals : List Goal) (draft : Draft)

namespace Verdict

def andThen (later : List Goal) : Verdict → Verdict
  | pass draft => pass draft
  | take goals draft => take (goals ++ later) draft

end Verdict

namespace NameList

def closer : NameList → TokenKind
  | variableNames | parameterNames => .colon
  | readTargets | arguments _ _ => .rightParen

def closerExpectation : NameList → Expectation
  | variableNames => .variableColon
  | parameterNames => .parameterColon
  | readTargets => .readEnd
  | arguments _ _ => .argumentsEnd

def goal (names : List Token) : NameList → Goal
  | variableNames => .variableType names
  | parameterNames => .parameterType names
  | readTargets => .readInto names
  | arguments name procedure => .perform name procedure names

end NameList

namespace Goal

def meetFactor (token : Token) (draft : Draft) : Except CompileError Verdict :=
  match token.kind with
  | .identifier => .ok (.take [.load token] draft)
  | .integerLiteral | .realLiteral => .ok (.take [] (draft.emit .constant (.text token.lexeme)))
  | .leftParen => .ok (.take [.expression, .expect .rightParen .parenthesisEnd] draft)
  | _ => .error (.unexpected .operand token)

/-- The first token of a term. A minus sign belongs to the first factor alone. -/
def meetTerm (token : Token) (draft : Draft) : Except CompileError Verdict :=
  match token.kind with
  | .operator .subtract => .ok (.take [.factor, .emit .negate .absent, .termTail] draft)
  | _ => (meetFactor token draft).map (·.andThen [.termTail])

def meetExpression (token : Token) (draft : Draft) : Except CompileError Verdict :=
  (meetTerm token draft).map (·.andThen [.expressionTail])

def statementGoals? (token : Token) (start : Nat) : Option (List Goal) :=
  match token.kind with
  | .keyword .readWord => some [.expect .leftParen .readStart, .names [] .readTargets]
  | .keyword .writeWord => some [.expect .leftParen .writeStart, .expression, .writeTail]
  | .keyword .ifWord => some [.expression, .relation, .thenBranch]
  | .keyword .whileWord => some [.expression, .relation, .loopBody start]
  | .identifier => some [.afterName token]
  | _ => none

def dataType? : TokenKind → Option DataType
  | .keyword .integerWord => some .integer
  | .keyword .realWord => some .real
  | _ => none

def programBody : List Goal :=
  [.optionalSemicolon, .declarations, .expect (.keyword .beginWord) .bodyStart, .statements,
    .expect (.keyword .endWord) .bodyEnd, .expect .dot .programDot, .endOfProgram]

def procedureBody (name : Token) : List Goal :=
  [.heading name, .optionalSemicolon, .locals, .expect (.keyword .beginWord) .procedureStart,
    .statements, .endOfProcedure, .optionalSemicolon]

def meet (goal : Goal) (token : Token) (draft : Draft) : Except CompileError Verdict :=
  match goal with
  | expect kind expectation =>
    if token.kind = kind then .ok (.take [] draft) else .error (.unexpected expectation token)
  | programName =>
    if token.kind = .identifier then
      .ok (.take programBody ({ draft with name := token.lexeme }.emit .start))
    else .error (.unexpected .programName token)
  | optionalSemicolon =>
    if token.kind = .semicolon then .ok (.take [] draft) else .ok (.pass draft)
  | declarations =>
    match token.kind with
    | .keyword .varWord =>
      .ok (.take [.names [] .variableNames, .optionalSemicolon, .declarations] draft)
    | .keyword .procedureWord =>
      .ok (.take [.procedureName, .procedures [draft.code.nextIndex], .declarations]
        (draft.emitJump .jump))
    | _ => .ok (.pass draft)
  | endOfProgram =>
    if token.kind = .endOfInput then .ok (.take [] (draft.emit .stop))
    else .error (.unexpected .endOfProgram token)
  | names earlier use =>
    if token.kind = .identifier then .ok (.take [.namesTail (earlier ++ [token]) use] draft)
    else if earlier.isEmpty then .error (.unexpected .identifier token)
    else .error (.unexpected .identifierAfterComma token)
  | namesTail found use =>
    if token.kind = .comma then .ok (.take [.names found use] draft)
    else if token.kind = use.closer then .ok (.take [use.goal found] draft)
    else .error (.unexpected use.closerExpectation token)
  | variableType found =>
    match dataType? token.kind with
    | some type => .ok (.take [.declareVariables found type] draft)
    | none => .error (.unexpected .typeName token)
  | parameterType found =>
    match dataType? token.kind with
    | some type => .ok (.take [.declareParameters found type, .parametersTail] draft)
    | none => .error (.unexpected .typeName token)
  | declareVariables found type =>
    (found.foldlM (Draft.declareVariable type) draft).map .pass
  | declareParameters found type =>
    (found.foldlM (Draft.declareParameter type) draft).map .pass
  | procedures skips =>
    if token.kind = .keyword .procedureWord then
      .ok (.take [.procedureName, .procedures (skips ++ [draft.code.nextIndex])]
        (draft.emitJump .jump))
    else (skips.foldlM Draft.patchHere draft).map .pass
  | procedureName =>
    if token.kind = .identifier then .ok (.take (procedureBody token) draft)
    else .error (.unexpected .procedureName token)
  | heading name => do
    let opened ← draft.openProcedure name
    if token.kind = .leftParen then .ok (.take [.names [] .parameterNames] opened)
    else .ok (.pass opened.declareProcedure)
  | parametersTail =>
    if token.kind = .semicolon then .ok (.take [.names [] .parameterNames] draft)
    else if token.kind = .rightParen then .ok (.take [] draft.declareProcedure)
    else .error (.unexpected .parametersEnd token)
  | locals =>
    if token.kind = .keyword .varWord then
      .ok (.take [.names [] .variableNames, .optionalSemicolon, .locals] draft)
    else .ok (.pass draft)
  | endOfProcedure =>
    if token.kind = .keyword .endWord then .ok (.take [] draft.closeProcedure)
    else .error (.unexpected .procedureEnd token)
  | statements =>
    match statementGoals? token draft.code.nextIndex with
    | some goals => .ok (.take (goals ++ [.statementsTail]) draft)
    | none =>
      if token.kind = .semicolon then .ok (.take [.statements] draft) else .ok (.pass draft)
  | statementsTail =>
    if token.kind = .semicolon then .ok (.take [.statements] draft) else .ok (.pass draft)
  | afterName name =>
    if token.kind = .assign then .ok (.take [.assignment name] draft)
    else do
      let procedure ← draft.resolveProcedure name
      if token.kind = .leftParen then .ok (.take [.names [] (.arguments name procedure)] draft)
      else (draft.emitCall name procedure []).map .pass
  | assignment target => do
    let symbol ← draft.resolveVariable target
    (meetExpression token draft).map (·.andThen [.emit .store (.integer symbol.address)])
  | readInto found => (draft.emitReads found).map .pass
  | perform name procedure arguments => (draft.emitCall name procedure arguments).map .pass
  | writeTail =>
    let written := draft.emit .write
    if token.kind = .comma then .ok (.take [.expression, .writeTail] written)
    else if token.kind = .rightParen then .ok (.take [] written)
    else .error (.unexpected .writeEnd token)
  | relation =>
    match token.kind with
    | .relation asked => .ok (.take [.expression, .emit (.compare asked) .absent] draft)
    | _ => .error (.unexpected .relation token)
  | thenBranch =>
    if token.kind = .keyword .thenWord then
      .ok (.take [.statements, .elseBranch draft.code.nextIndex] (draft.emitJump .jumpIfZero))
    else .error (.unexpected .thenWord token)
  | elseBranch skip => do
    let left ← (draft.emitJump .jump).patchHere skip
    if token.kind = .keyword .elseWord then
      .ok (.take [.statements, .endOfIf draft.code.nextIndex] left)
    else if token.kind = .dollar then (left.patchHere draft.code.nextIndex).map (.take [])
    else .error (.unexpected .ifEnd token)
  | endOfIf leave =>
    if token.kind = .dollar then (draft.patchHere leave).map (.take [])
    else .error (.unexpected .ifEnd token)
  | loopBody start =>
    if token.kind = .keyword .doWord then
      .ok (.take [.statements, .endOfLoop start draft.code.nextIndex] (draft.emitJump .jumpIfZero))
    else .error (.unexpected .doWord token)
  | endOfLoop start leave =>
    if token.kind = .dollar then ((draft.emitAt .jump start).patchHere leave).map (.take [])
    else .error (.unexpected .loopEnd token)
  | expression => meetExpression token draft
  | expressionTail =>
    match token.kind with
    | .operator .add =>
      .ok (.take [.term, .emit (.arithmetic .add) .absent, .expressionTail] draft)
    | .operator .subtract =>
      .ok (.take [.term, .emit (.arithmetic .subtract) .absent, .expressionTail] draft)
    | _ => .ok (.pass draft)
  | term => meetTerm token draft
  | termTail =>
    match token.kind with
    | .operator .multiply =>
      .ok (.take [.factor, .emit (.arithmetic .multiply) .absent, .termTail] draft)
    | .operator .divide =>
      .ok (.take [.factor, .emit (.arithmetic .divide) .absent, .termTail] draft)
    | _ => .ok (.pass draft)
  | factor => meetFactor token draft
  | load name => do
    let symbol ← draft.resolveVariable name
    .ok (.pass (draft.emitAt .load symbol.address))
  | emit opcode argument => .ok (.pass (draft.emit opcode argument))

/-- Puts a token to the goals until one takes it. -/
def advance : List Goal → Token → Draft → Except CompileError (List Goal × Draft)
  | [], token, _ => .error (.unexpected .endOfProgram token)
  | goal :: later, token, draft =>
    match goal.meet token draft with
    | .error error => .error error
    | .ok (.pass passed) => advance later token passed
    | .ok (.take goals taken) => .ok (goals ++ later, taken)

def advanceAll : List Goal → List Token → Draft → Except CompileError (List Goal × Draft)
  | goals, [], draft => .ok (goals, draft)
  | goals, token :: tokens, draft =>
    match advance goals token draft with
    | .error error => .error error
    | .ok (remaining, advanced) => advanceAll remaining tokens advanced

def program : List Goal :=
  [.expect (.keyword .programWord) .programWord, .programName]

end Goal

end Pascalet
