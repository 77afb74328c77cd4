import MetadataRegistry.Store.Databases
import MetadataRegistry.Store.Segments

/-!
Several writes as one transaction. A write that fails changes nothing and does not end the
transaction; at the end the changes are kept or discarded together.
-/

namespace MetadataRegistry

inductive TransactionWrite where
  | insertTenant (tenant : Tenant)
  | insertDatabase (database : Database)
  | advanceCheckpoint (id : String) (time : Int64)
  | flushSegment (flush : SegmentFlush) (collectionId : Option CollectionId)

def TransactionWrite.apply (now : Instant) (store : Store) : TransactionWrite → Except Failure Store
  | insertTenant tenant => store.insertTenant tenant
  | insertDatabase database => store.insertDatabase database
  | advanceCheckpoint id time => store.advanceCheckpoint now id time
  | flushSegment flush collectionId => store.flushSegment now collectionId flush

def applyWrites (now : Instant) : List TransactionWrite → Store → List (Except Failure Unit) × Store
  | [], store => ([], store)
  | write :: rest, store =>
      match write.apply now store with
      | .ok changed =>
          let (outcomes, final) := applyWrites now rest changed
          (.ok () :: outcomes, final)
      | .error failure =>
          let (outcomes, final) := applyWrites now rest store
          (.error failure :: outcomes, final)

def runTransaction (now : Instant) (writes : List TransactionWrite) (commit : Bool) (store : Store) :
    List (Except Failure Unit) × Store :=
  let (outcomes, changed) := applyWrites now writes store
  (outcomes, if commit then changed else store)

end MetadataRegistry
