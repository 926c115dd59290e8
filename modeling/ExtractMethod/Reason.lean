/-! The reasons shown to the user, verbatim. -/
namespace ExtractMethod.Reason

def invalidSelection : String := "Invalid selection."

def noValidToken : String := "Selection does not contain a valid token."

def noValidSelection : String := "No valid selection to perform extraction."

def noCommonRoot : String := "No common root node for extraction."

def notInType : String := "Selection not contained inside a type."

def constantInitializer : String :=
  "Selection can not be part of constant initializer expression."

def refOrOutArgument : String :=
  "Argument used for ref or out parameter can't be extracted out."

def noValidStatementRange : String := "No valid statement range to extract."

def containsErrors : String := "The selection contains syntactic errors."

def cutsDirectives : String := "Selection can not cross over preprocessor directives."

def containsYield : String := "Selection can not contain a yield statement."

def loopWidened : String := "The selection was expanded to include the whole loop."

def cancelled : String := "The operation was cancelled."

def addressTaken : String := "The address of a variable is used inside the selected code."

def localFunctionCall : String :=
  "The selection contains a local function call without its declaration."

def notAllPathsReturn : String := "Not all code paths return a value in the selected code."

/-- The items between commas. -/
def listed (items : List String) : String := ", ".intercalate items

/-- The items between commas and in brackets. -/
def bracketed (items : List String) : String := "[" ++ listed items ++ "]"

def readonlyAssigned (fields : List String) : String :=
  "Assigning to readonly fields must be done in a constructor: " ++ bracketed fields ++ "."

def anonymousTypes (names : List String) : String :=
  "Parameters' type or return type cannot be an anonymous type: " ++ bracketed names ++ "."

def asyncByReference (names : List String) : String :=
  "Asynchronous method cannot have ref/out parameters: " ++ bracketed names ++ "."

def unresolved (names : List String) : String :=
  "Failed to analyze data-flow for: " ++ listed names

def jumpOut (keyword : String) : String :=
  "Selection can not contain a '" ++ keyword ++ "' that jumps outside of it."

end ExtractMethod.Reason
