/-!
Cutting texts at separators.
-/
namespace PatchPanel.Text

/-- The pieces of a text between the occurrences of a separator; there is one more piece than there
are separators. -/
def pieces (separator : Char) : List Char → List (List Char)
  | [] => [[]]
  | c :: text =>
    if c = separator then [] :: pieces separator text
    else
      match pieces separator text with
      | [] => [[c]]
      | piece :: rest => (c :: piece) :: rest

/-- The parts before and after the first occurrence of a separator. -/
def cut? (separator : Char) : List Char → Option (List Char × List Char)
  | [] => none
  | c :: text =>
    if c = separator then some ([], text)
    else (cut? separator text).map fun parts => (c :: parts.1, parts.2)

/-- The parts before and after the first place where a separator stands twice in a row. -/
def cutDouble? (separator : Char) : List Char → Option (List Char × List Char)
  | [] => none
  | [_] => none
  | c :: d :: text =>
    if c = separator ∧ d = separator then some ([], text)
    else (cutDouble? separator (d :: text)).map fun parts => (c :: parts.1, parts.2)

end PatchPanel.Text
