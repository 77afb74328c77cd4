import MetadataRegistry.Failure

/-!
Errors of the store and what they mean for a record. Of several violated constraints the store
reports one: a missing value before a failed check, a check before a lost uniqueness, and that
before a missing reference.
-/

namespace MetadataRegistry

inductive Constraint where
  | notNull
  | check
  | unique
  | reference
  deriving DecidableEq, Repr

inductive StoreError where
  | rowNotFound
  | violation (constraint : Constraint)
  | broken
  deriving DecidableEq, Repr

inductive StoreFault where
  | conflict
  | notFound
  | other
  deriving DecidableEq, Repr

namespace StoreError

def fault : StoreError → StoreFault
  | rowNotFound => .notFound
  | violation .unique => .conflict
  | violation .reference => .notFound
  | violation _ => .other
  | broken => .other

def failure (error : StoreError) (entity id : String) : Failure :=
  match error.fault with
  | .conflict => .alreadyExists entity id
  | .notFound => .notFound entity id
  | .other => .internal .store

end StoreError

/-- The violation that the store reports out of those that there are. -/
def reportedViolation (violated : List Constraint) : Option Constraint :=
  [Constraint.notNull, .check, .unique, .reference].find? violated.contains

end MetadataRegistry
