import MetadataRegistry.Json.Basic

/-!
The compact text of a document: no blanks, members in their order.
-/

namespace MetadataRegistry

def quoted (body : List Char) : List Char := '"' :: body ++ ['"']

mutual

def Json.render : Json → List Char
  | .null => ['n', 'u', 'l', 'l']
  | .bool true => ['t', 'r', 'u', 'e']
  | .bool false => ['f', 'a', 'l', 's', 'e']
  | .number literal => literal
  | .string body => quoted body
  | .array [] => ['[', ']']
  | .array (item :: items) => '[' :: item.render ++ renderItems items
  | .object [] => ['{', '}']
  | .object ((label, value) :: members) => '{' :: quoted label ++ ':' :: value.render ++ renderMembers members

def renderItems : List Json → List Char
  | [] => [']']
  | item :: items => ',' :: item.render ++ renderItems items

def renderMembers : List (List Char × Json) → List Char
  | [] => ['}']
  | (label, value) :: members => ',' :: quoted label ++ ':' :: value.render ++ renderMembers members

end

def Json.text (document : Json) : String := String.ofList document.render

end MetadataRegistry
