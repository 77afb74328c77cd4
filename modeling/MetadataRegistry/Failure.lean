/-!
What can go wrong with a record, and how a caller hears of it. A failure names its record; the
cause of an internal failure stays inside, and the caller is told only which operation failed.
-/

namespace MetadataRegistry

inductive InternalCause where
  | store
  | unreadableColumn (column : String)
  | malformedIdentifier
  | unreadableDocument
  | unreadableTime (column : String)
  | timeOutOfRange (column : String) (millis : Int)
  | unknownState (text : String)
  | unknownScope (text : String)
  | reported (message : String)
  deriving DecidableEq, Repr

/-- The message of a cause, as far as this library words it; the store and the readers of documents
and times add details of their own. -/
def InternalCause.message? : InternalCause → Option String
  | .store => none
  | .unreadableColumn column => some s!"column `{column}`:"
  | .malformedIdentifier => none
  | .unreadableDocument => some "json:"
  | .unreadableTime column => some s!"invalid {column}:"
  | .timeOutOfRange column millis => some s!"invalid {column}: {millis} is out of range"
  | .unknownState text => some s!"unknown database state `{text}`"
  | .unknownScope text => some s!"unknown segment scope `{text}`"
  | .reported message => some message

inductive Failure where
  | notFound (entity id : String)
  | alreadyExists (entity id : String)
  | alreadyBound (entity id field : String)
  | internal (cause : InternalCause)
  deriving DecidableEq, Repr

namespace Failure

def message : Failure → String
  | notFound entity id => s!"{entity} `{id}` was not found"
  | alreadyExists entity id => s!"{entity} `{id}` already exists"
  | alreadyBound entity id field => s!"{entity} `{id}` already has a {field} bound"
  | internal cause => "internal error: " ++ cause.message?.getD ""

def isNotFound : Failure → Bool
  | notFound _ _ => true
  | _ => false

end Failure

inductive StatusCode where
  | invalidArgument
  | notFound
  | alreadyExists
  | failedPrecondition
  | internal
  | deadlineExceeded
  deriving DecidableEq, Repr

structure Status where
  code : StatusCode
  message : String
  deriving DecidableEq, Repr

namespace Status

def invalidArgument (message : String) : Status := ⟨.invalidArgument, message⟩

def deadlineExceeded (operation : String) : Status :=
  ⟨.deadlineExceeded, s!"{operation} exceeded its deadline"⟩

/-- The status of a failed operation. Internal failures are told without their cause. -/
def ofFailure (operation : String) (failure : Failure) : Status :=
  match failure with
  | .notFound _ _ => ⟨.notFound, failure.message⟩
  | .alreadyExists _ _ => ⟨.alreadyExists, failure.message⟩
  | .alreadyBound _ _ _ => ⟨.failedPrecondition, failure.message⟩
  | .internal _ => ⟨.internal, s!"{operation} failed"⟩

end Status

end MetadataRegistry
