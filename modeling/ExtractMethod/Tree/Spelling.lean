import ExtractMethod.Text.Alphabetic
import ExtractMethod.Text.Blank
import ExtractMethod.Text.Number
import ExtractMethod.Tree.TokenKind

namespace ExtractMethod.Tree

def keywords : List (String × TokenKind) := [
  ("async", .asyncKw), ("await", .awaitKw), ("base", .baseKw), ("bool", .boolKw),
  ("break", .breakKw), ("class", .classKw), ("const", .constKw), ("continue", .continueKw),
  ("do", .doKw), ("else", .elseKw), ("false", .falseKw), ("for", .forKw),
  ("foreach", .foreachKw), ("get", .getKw), ("goto", .gotoKw), ("if", .ifKw), ("in", .inKw),
  ("int", .intKw), ("interface", .interfaceKw), ("new", .newKw), ("Next", .nextKw),
  ("null", .nullKw), ("out", .outKw), ("readonly", .readonlyKw), ("record", .recordKw),
  ("ref", .refKw), ("return", .returnKw), ("set", .setKw), ("static", .staticKw),
  ("string", .stringKw), ("struct", .structKw), ("this", .thisKw), ("throw", .throwKw),
  ("true", .trueKw), ("using", .usingKw), ("var", .varKw), ("void", .voidKw),
  ("while", .whileKw), ("yield", .yieldKw) ]

def punctuation : List (String × TokenKind) := [
  ("\x7b", .lBrace), ("\x7d", .rBrace), ("(", .lParen), (")", .rParen), ("[", .lBracket),
  ("]", .rBracket), (";", .semicolon), (",", .comma), (".", .dot), (":", .colon),
  ("?", .question), ("=", .eq), ("==", .eqEq), ("!=", .bangEq), ("!", .bang), ("+", .plus),
  ("++", .plusPlus), ("+=", .plusEq), ("-", .minus), ("--", .minusMinus), ("-=", .minusEq),
  ("*", .star), ("/", .slash), ("%", .percent), ("&", .amp), ("&&", .ampAmp), ("||", .pipePipe),
  ("<", .lt), (">", .gt), ("=>", .arrow) ]

namespace TokenKind

def ofKeyword? (text : String) : Option TokenKind := keywords.lookup text

def ofPunctuation? (text : String) : Option TokenKind := punctuation.lookup text

def isKeyword (kind : TokenKind) : Bool := keywords.any fun entry => entry.2 = kind

/-- The beginnings of texts that settle their kind. The first match counts. -/
def beginnings : List (String × TokenKind) := [
  ("///", .docComment), ("//", .lineComment), ("/*", .blockComment), ("#if", .ifDirective),
  ("#elif", .elifDirective), ("#else", .elseDirective), ("#endif", .endIfDirective),
  ("#endregion", .endRegionDirective), ("#region", .regionDirective), ("\"", .stringLiteral),
  ("'", .charLiteral) ]

/-- The kind of a text that is neither keyword nor punctuation. -/
def ofOther (first : Char) (rest : List Char) (text : String) : TokenKind :=
  if (first :: rest).all Text.isBlank then .whitespace
  else match beginnings.find? fun entry => text.startsWith entry.1 with
    | some (_, kind) => kind
    | none =>
      if first.isDigit then
        if rest.contains '.' then .floatLiteral else .intLiteral
      else if (first = '_' || Text.isAlphabetic first) &&
          rest.all fun c => c = '_' || Text.isAlphabetic c || Text.isNumber c then .identifier
      else .error

/-- The most likely kind of a piece of text. -/
def infer (text : String) : TokenKind :=
  match ofKeyword? text <|> ofPunctuation? text with
  | some kind => kind
  | none =>
    match text.toList with
    | [] => .error
    | first :: rest => ofOther first rest text

end TokenKind

end ExtractMethod.Tree
