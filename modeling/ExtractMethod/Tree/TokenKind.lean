namespace ExtractMethod.Tree

/-- The kinds of tokens: trivia with directives, identifiers and literals, keywords, punctuation,
and input that is no token at all. -/
inductive TokenKind where
  | whitespace | lineComment | blockComment | docComment | ifDirective | elifDirective
  | elseDirective | endIfDirective | regionDirective | endRegionDirective | identifier
  | intLiteral | floatLiteral | charLiteral | stringLiteral | asyncKw | awaitKw | baseKw | boolKw
  | breakKw | classKw | constKw | continueKw | doKw | elseKw | falseKw | forKw | foreachKw
  | getKw | gotoKw | ifKw | inKw | intKw | interfaceKw | newKw | nextKw | nullKw | outKw
  | readonlyKw | recordKw | refKw | returnKw | setKw | staticKw | stringKw | structKw | thisKw
  | throwKw | trueKw | usingKw | varKw | voidKw | whileKw | yieldKw | lBrace | rBrace | lParen
  | rParen | lBracket | rBracket | semicolon | comma | dot | colon | question | eq | eqEq
  | bangEq | bang | plus | plusPlus | plusEq | minus | minusMinus | minusEq | star | slash
  | percent | amp | ampAmp | pipePipe | lt | gt | arrow | error
deriving DecidableEq, Inhabited

namespace TokenKind

/-- All token kinds, by their number. -/
def all : List TokenKind := [
  .whitespace, .lineComment, .blockComment, .docComment, .ifDirective, .elifDirective,
  .elseDirective, .endIfDirective, .regionDirective, .endRegionDirective, .identifier,
  .intLiteral, .floatLiteral, .charLiteral, .stringLiteral, .asyncKw, .awaitKw, .baseKw, .boolKw,
  .breakKw, .classKw, .constKw, .continueKw, .doKw, .elseKw, .falseKw, .forKw, .foreachKw,
  .getKw, .gotoKw, .ifKw, .inKw, .intKw, .interfaceKw, .newKw, .nextKw, .nullKw, .outKw,
  .readonlyKw, .recordKw, .refKw, .returnKw, .setKw, .staticKw, .stringKw, .structKw, .thisKw,
  .throwKw, .trueKw, .usingKw, .varKw, .voidKw, .whileKw, .yieldKw, .lBrace, .rBrace, .lParen,
  .rParen, .lBracket, .rBracket, .semicolon, .comma, .dot, .colon, .question, .eq, .eqEq,
  .bangEq, .bang, .plus, .plusPlus, .plusEq, .minus, .minusMinus, .minusEq, .star, .slash,
  .percent, .amp, .ampAmp, .pipePipe, .lt, .gt, .arrow, .error ]

def name : TokenKind → String
  | .whitespace => "Whitespace"
  | .lineComment => "LineComment"
  | .blockComment => "BlockComment"
  | .docComment => "DocComment"
  | .ifDirective => "IfDirective"
  | .elifDirective => "ElifDirective"
  | .elseDirective => "ElseDirective"
  | .endIfDirective => "EndIfDirective"
  | .regionDirective => "RegionDirective"
  | .endRegionDirective => "EndRegionDirective"
  | .identifier => "Identifier"
  | .intLiteral => "IntLiteral"
  | .floatLiteral => "FloatLiteral"
  | .charLiteral => "CharLiteral"
  | .stringLiteral => "StringLiteral"
  | .asyncKw => "AsyncKw"
  | .awaitKw => "AwaitKw"
  | .baseKw => "BaseKw"
  | .boolKw => "BoolKw"
  | .breakKw => "BreakKw"
  | .classKw => "ClassKw"
  | .constKw => "ConstKw"
  | .continueKw => "ContinueKw"
  | .doKw => "DoKw"
  | .elseKw => "ElseKw"
  | .falseKw => "FalseKw"
  | .forKw => "ForKw"
  | .foreachKw => "ForeachKw"
  | .getKw => "GetKw"
  | .gotoKw => "GotoKw"
  | .ifKw => "IfKw"
  | .inKw => "InKw"
  | .intKw => "IntKw"
  | .interfaceKw => "InterfaceKw"
  | .newKw => "NewKw"
  | .nextKw => "NextKw"
  | .nullKw => "NullKw"
  | .outKw => "OutKw"
  | .readonlyKw => "ReadonlyKw"
  | .recordKw => "RecordKw"
  | .refKw => "RefKw"
  | .returnKw => "ReturnKw"
  | .setKw => "SetKw"
  | .staticKw => "StaticKw"
  | .stringKw => "StringKw"
  | .structKw => "StructKw"
  | .thisKw => "ThisKw"
  | .throwKw => "ThrowKw"
  | .trueKw => "TrueKw"
  | .usingKw => "UsingKw"
  | .varKw => "VarKw"
  | .voidKw => "VoidKw"
  | .whileKw => "WhileKw"
  | .yieldKw => "YieldKw"
  | .lBrace => "LBrace"
  | .rBrace => "RBrace"
  | .lParen => "LParen"
  | .rParen => "RParen"
  | .lBracket => "LBracket"
  | .rBracket => "RBracket"
  | .semicolon => "Semicolon"
  | .comma => "Comma"
  | .dot => "Dot"
  | .colon => "Colon"
  | .question => "Question"
  | .eq => "Eq"
  | .eqEq => "EqEq"
  | .bangEq => "BangEq"
  | .bang => "Bang"
  | .plus => "Plus"
  | .plusPlus => "PlusPlus"
  | .plusEq => "PlusEq"
  | .minus => "Minus"
  | .minusMinus => "MinusMinus"
  | .minusEq => "MinusEq"
  | .star => "Star"
  | .slash => "Slash"
  | .percent => "Percent"
  | .amp => "Amp"
  | .ampAmp => "AmpAmp"
  | .pipePipe => "PipePipe"
  | .lt => "Lt"
  | .gt => "Gt"
  | .arrow => "Arrow"
  | .error => "Error"

/-- Preprocessor directives. -/
def isDirective : TokenKind → Bool
  | .ifDirective | .elifDirective | .elseDirective | .endIfDirective | .regionDirective
  | .endRegionDirective => true
  | _ => false

/-- Text that carries no meaning for the tree: blanks, comments and directives. -/
def isTrivia : TokenKind → Bool
  | .whitespace | .lineComment | .blockComment | .docComment => true
  | kind => kind.isDirective

/-- Directives that open a region. -/
def isOpening : TokenKind → Bool
  | .ifDirective | .regionDirective => true
  | _ => false

/-- Directives that close a region. -/
def isClosing : TokenKind → Bool
  | .endIfDirective | .endRegionDirective => true
  | _ => false

end TokenKind

end ExtractMethod.Tree
