namespace ExtractMethod.Tree

/-- The kinds of nodes: declarations, statements, expressions, and unreadable input. -/
inductive NodeKind where
  | compilationUnit | namespaceDeclaration | classDeclaration | structDeclaration
  | recordDeclaration | interfaceDeclaration | baseList | primaryConstructorBaseType
  | methodDeclaration | constructorDeclaration | propertyDeclaration | accessorList
  | accessorDeclaration | fieldDeclaration | variableDeclaration | variableDeclarator
  | equalsValueClause | arrowExpressionClause | parameterList | parameter | typeRef | block
  | localDeclarationStatement | expressionStatement | ifStatement | elseClause | whileStatement
  | doStatement | forStatement | forEachStatement | usingStatement | returnStatement
  | yieldStatement | breakStatement | continueStatement | gotoStatement | throwStatement
  | labeledStatement | emptyStatement | localFunctionStatement | loopBlock | loopHeader
  | loopTrailer | nameExpression | literalExpression | thisExpression | parenthesizedExpression
  | tupleExpression | binaryExpression | prefixUnaryExpression | postfixUnaryExpression
  | assignmentExpression | conditionalExpression | castExpression | invocationExpression
  | memberAccessExpression | elementAccessExpression | objectCreationExpression
  | anonymousObjectCreationExpression | awaitExpression | lambdaExpression | refExpression
  | addressOfExpression | argumentList | argument | errorNode
deriving DecidableEq, Inhabited

namespace NodeKind

/-- All node kinds, by their number after the token kinds. -/
def all : List NodeKind := [
  .compilationUnit, .namespaceDeclaration, .classDeclaration, .structDeclaration,
  .recordDeclaration, .interfaceDeclaration, .baseList, .primaryConstructorBaseType,
  .methodDeclaration, .constructorDeclaration, .propertyDeclaration, .accessorList,
  .accessorDeclaration, .fieldDeclaration, .variableDeclaration, .variableDeclarator,
  .equalsValueClause, .arrowExpressionClause, .parameterList, .parameter, .typeRef, .block,
  .localDeclarationStatement, .expressionStatement, .ifStatement, .elseClause, .whileStatement,
  .doStatement, .forStatement, .forEachStatement, .usingStatement, .returnStatement,
  .yieldStatement, .breakStatement, .continueStatement, .gotoStatement, .throwStatement,
  .labeledStatement, .emptyStatement, .localFunctionStatement, .loopBlock, .loopHeader,
  .loopTrailer, .nameExpression, .literalExpression, .thisExpression, .parenthesizedExpression,
  .tupleExpression, .binaryExpression, .prefixUnaryExpression, .postfixUnaryExpression,
  .assignmentExpression, .conditionalExpression, .castExpression, .invocationExpression,
  .memberAccessExpression, .elementAccessExpression, .objectCreationExpression,
  .anonymousObjectCreationExpression, .awaitExpression, .lambdaExpression, .refExpression,
  .addressOfExpression, .argumentList, .argument, .errorNode ]

def name : NodeKind → String
  | .compilationUnit => "CompilationUnit"
  | .namespaceDeclaration => "NamespaceDeclaration"
  | .classDeclaration => "ClassDeclaration"
  | .structDeclaration => "StructDeclaration"
  | .recordDeclaration => "RecordDeclaration"
  | .interfaceDeclaration => "InterfaceDeclaration"
  | .baseList => "BaseList"
  | .primaryConstructorBaseType => "PrimaryConstructorBaseType"
  | .methodDeclaration => "MethodDeclaration"
  | .constructorDeclaration => "ConstructorDeclaration"
  | .propertyDeclaration => "PropertyDeclaration"
  | .accessorList => "AccessorList"
  | .accessorDeclaration => "AccessorDeclaration"
  | .fieldDeclaration => "FieldDeclaration"
  | .variableDeclaration => "VariableDeclaration"
  | .variableDeclarator => "VariableDeclarator"
  | .equalsValueClause => "EqualsValueClause"
  | .arrowExpressionClause => "ArrowExpressionClause"
  | .parameterList => "ParameterList"
  | .parameter => "Parameter"
  | .typeRef => "TypeRef"
  | .block => "Block"
  | .localDeclarationStatement => "LocalDeclarationStatement"
  | .expressionStatement => "ExpressionStatement"
  | .ifStatement => "IfStatement"
  | .elseClause => "ElseClause"
  | .whileStatement => "WhileStatement"
  | .doStatement => "DoStatement"
  | .forStatement => "ForStatement"
  | .forEachStatement => "ForEachStatement"
  | .usingStatement => "UsingStatement"
  | .returnStatement => "ReturnStatement"
  | .yieldStatement => "YieldStatement"
  | .breakStatement => "BreakStatement"
  | .continueStatement => "ContinueStatement"
  | .gotoStatement => "GotoStatement"
  | .throwStatement => "ThrowStatement"
  | .labeledStatement => "LabeledStatement"
  | .emptyStatement => "EmptyStatement"
  | .localFunctionStatement => "LocalFunctionStatement"
  | .loopBlock => "LoopBlock"
  | .loopHeader => "LoopHeader"
  | .loopTrailer => "LoopTrailer"
  | .nameExpression => "NameExpression"
  | .literalExpression => "LiteralExpression"
  | .thisExpression => "ThisExpression"
  | .parenthesizedExpression => "ParenthesizedExpression"
  | .tupleExpression => "TupleExpression"
  | .binaryExpression => "BinaryExpression"
  | .prefixUnaryExpression => "PrefixUnaryExpression"
  | .postfixUnaryExpression => "PostfixUnaryExpression"
  | .assignmentExpression => "AssignmentExpression"
  | .conditionalExpression => "ConditionalExpression"
  | .castExpression => "CastExpression"
  | .invocationExpression => "InvocationExpression"
  | .memberAccessExpression => "MemberAccessExpression"
  | .elementAccessExpression => "ElementAccessExpression"
  | .objectCreationExpression => "ObjectCreationExpression"
  | .anonymousObjectCreationExpression => "AnonymousObjectCreationExpression"
  | .awaitExpression => "AwaitExpression"
  | .lambdaExpression => "LambdaExpression"
  | .refExpression => "RefExpression"
  | .addressOfExpression => "AddressOfExpression"
  | .argumentList => "ArgumentList"
  | .argument => "Argument"
  | .errorNode => "ErrorNode"

def isTypeDeclaration : NodeKind → Bool
  | .classDeclaration | .structDeclaration | .recordDeclaration | .interfaceDeclaration => true
  | _ => false

/-- An else clause belongs to its statement and is none itself. -/
def isStatement : NodeKind → Bool
  | .block | .localDeclarationStatement | .expressionStatement | .ifStatement
  | .whileStatement | .doStatement | .forStatement | .forEachStatement | .usingStatement
  | .returnStatement | .yieldStatement | .breakStatement | .continueStatement | .gotoStatement
  | .throwStatement | .labeledStatement | .emptyStatement | .localFunctionStatement
  | .loopBlock | .loopHeader | .loopTrailer => true
  | _ => false

/-- Nodes whose children form a list of statements. -/
def isStatementContainer : NodeKind → Bool
  | .block | .loopBlock => true
  | _ => false

def isExpression : NodeKind → Bool
  | .nameExpression | .literalExpression | .thisExpression | .parenthesizedExpression
  | .tupleExpression | .binaryExpression | .prefixUnaryExpression | .postfixUnaryExpression
  | .assignmentExpression | .conditionalExpression | .castExpression | .invocationExpression
  | .memberAccessExpression | .elementAccessExpression | .objectCreationExpression
  | .anonymousObjectCreationExpression | .awaitExpression | .lambdaExpression | .refExpression
  | .addressOfExpression => true
  | _ => false

/-- The targets of `break` and `continue`. -/
def isLoop : NodeKind → Bool
  | .whileStatement | .doStatement | .forStatement | .forEachStatement | .loopBlock => true
  | _ => false

/-- Nodes with a body of their own, which does not run when the node is reached. -/
def isNestedFunction : NodeKind → Bool
  | .lambdaExpression | .localFunctionStatement => true
  | _ => false

end NodeKind

end ExtractMethod.Tree
