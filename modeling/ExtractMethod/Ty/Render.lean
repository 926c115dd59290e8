import ExtractMethod.Ty.Basic

namespace ExtractMethod.Ty

mutual

/-- The type as it is written in a document. -/
def render : Ty → String
  | .void => "void"
  | .object => "object"
  | .primitive p => p.keyword
  | .named name args _ =>
    if args.isEmpty then name else name ++ "<" ++ ", ".intercalate (renderAll args) ++ ">"
  | .typeParam param => param.name
  | .array element => element.render ++ "[]"
  | .nullable inner => inner.render ++ "?"
  | .tuple elements => "(" ++ ", ".intercalate (renderElements elements) ++ ")"
  | .bareTask => "Task"
  | .taskOf result => "Task<" ++ result.render ++ ">"
  | .anonymous name => "<anonymous " ++ name ++ ">"
  | .error => "?"

def renderAll : List Ty → List String
  | [] => []
  | ty :: rest => ty.render :: renderAll rest

def renderElements : List (Option Name × Ty) → List String
  | [] => []
  | (some name, ty) :: rest => (ty.render ++ " " ++ name) :: renderElements rest
  | (none, ty) :: rest => ty.render :: renderElements rest

end

end ExtractMethod.Ty
