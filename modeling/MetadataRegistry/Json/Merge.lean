import MetadataRegistry.Json.Basic

/-!
Merging a flat object into a document. Each member of the patch replaces the member of that label,
or is added at the end; a null removes it. A document that is no object counts as an empty one.
Labels are the same when they are spelled the same.
-/

namespace MetadataRegistry

abbrev Members := List (List Char × Json)

def putMember (label : List Char) (value : Json) : Members → Members
  | [] => [(label, value)]
  | member :: rest => if member.1 = label then (label, value) :: rest else member :: putMember label value rest

def dropMember (label : List Char) : Members → Members
  | [] => []
  | member :: rest => if member.1 = label then rest else member :: dropMember label rest

def mergeMember (members : Members) (label : List Char) (value : Json) : Members :=
  match value with
  | .null => dropMember label members
  | value => putMember label value members

def mergeMembers (target patch : Members) : Members :=
  patch.foldl (fun members entry => mergeMember members entry.1 entry.2) target

def Json.objectMembers : Json → Members
  | .object members => members
  | _ => []

/-- The target with every member of the patch put into it. A patch that is no object takes the
target's place. -/
def Json.merge (target patch : Json) : Json :=
  match patch with
  | .object members => .object (mergeMembers target.objectMembers members)
  | whole => whole

end MetadataRegistry
