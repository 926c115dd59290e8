import ExtractMethod.Toml.Value

/-! Tables that stand for datetimes. -/
namespace ExtractMethod.Toml

/-- A table that has this as its first key stands for the datetime in the string of that member. -/
def datetimeKey : String := "$__toml_private_datetime"

mutual

/-- Puts datetimes in the place of the tables that stand for them. There is no result if one of
these tables does not tell a datetime. -/
def Value.resolve? : Value → Option Value
  | .array items => .array <$> resolveItems? items
  | .table origin members => resolveTable? origin members
  | .tables elements => .array <$> resolveElements? elements
  | value => some value

def resolveItems? : List Value → Option (List Value)
  | [] => some []
  | item :: rest => do pure ((← item.resolve?) :: (← resolveItems? rest))

/-- What stands beside the key of datetimes is not looked at. -/
def resolveTable? (origin : Origin) : List (String × Value) → Option Value
  | [] => some (.table origin [])
  | (name, value) :: rest =>
    if name = datetimeKey then
      match value with
      | .text s => .datetime <$> Datetime.ofText? s
      | _ => none
    else do
      pure (.table origin ((name, ← value.resolve?) :: (← resolveMembers? rest)))

def resolveMembers? : List (String × Value) → Option (List (String × Value))
  | [] => some []
  | (name, value) :: rest => do pure ((name, ← value.resolve?) :: (← resolveMembers? rest))

def resolveElements? : List (List (String × Value)) → Option (List Value)
  | [] => some []
  | members :: rest => do
    pure ((← resolveTable? .header members) :: (← resolveElements? rest))

end

end ExtractMethod.Toml
