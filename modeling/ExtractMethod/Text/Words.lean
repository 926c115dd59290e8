import ExtractMethod.Text.Blank

namespace ExtractMethod.Text

/-- Splits characters at white space. `current` holds the word that is being read, backwards. -/
def splitBlank (current : List Char) : List Char → List (List Char)
  | [] => if current.isEmpty then [] else [current.reverse]
  | c :: rest =>
    if isBlank c then
      if current.isEmpty then splitBlank [] rest else current.reverse :: splitBlank [] rest
    else splitBlank (c :: current) rest

/-- The words of a text, which white space separates. -/
def words (text : String) : List String := (splitBlank [] text.toList).map String.ofList

end ExtractMethod.Text
