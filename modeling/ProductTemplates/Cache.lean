import ProductTemplates.Cache.Timestamp
import ProductTemplates.Descriptor.Reading
import ProductTemplates.Descriptor.Writing
import ProductTemplates.FileTree.Disk
import ProductTemplates.Json
import ProductTemplates.Json.Reader

/-! Resolved templates kept in a folder, a file for each key. A record names its key, so that a
file under a wrong name is never taken for another. -/
namespace ProductTemplates

open Document

structure CacheRecord where
  format : Nat
  key : String
  createdAt : String
  bundle : Bundle
deriving Repr, Inhabited

namespace CacheRecord

def currentFormat : Nat := 1

def toValue (r : CacheRecord) : Value :=
  Value.record [("format", .number (.integer r.format)), ("key", .string r.key),
    ("created_at", .string r.createdAt), ("bundle", r.bundle.toValue)]

/-- A number of 32 bits. -/
def readFormat : Reader Nat := fun n =>
  match n with
  | .scalar (.atom (.number (.integer i))) =>
    if 0 ≤ i ∧ i < Int.pow 2 32 then .ok i.toNat else .error .malformed
  | _ => .error .malformed

def readTime : Reader String := fun n => do
  let text ← n.string
  if Timestamp.isTimestamp text then return text else throw .malformed

def fields : List (RecordField CacheRecord) := [
  (RecordField.of "format" readFormat fun x r => { r with format := x }).needed,
  (RecordField.of "key" Node.string fun x r => { r with key := x }).needed,
  (RecordField.of "created_at" readTime fun x r => { r with createdAt := x }).needed,
  (RecordField.of "bundle" Bundle.read fun x r => { r with bundle := x }).needed]

def read : Reader CacheRecord := RecordField.record fields default

def ofBytes? (bytes : Bytes) : Option CacheRecord := do
  let text ← String.fromUTF8? ⟨bytes.toArray⟩
  ((Json.readText text).read read).toOption

def toBytes? (r : CacheRecord) : Option Bytes :=
  match r.toValue.toJson with
  | .ok j => some j.compactText.toUTF8.toList
  | .error _ => none

end CacheRecord

/-- What tells one store from all others: its time, and a text that no other file name ends in. -/
structure Stamp where
  time : String
  suffix : String
deriving Repr, DecidableEq, Inhabited

inductive StoreError where
  | folder (path : String)
  | serialize
  | write (path : String)
  | move (path : String)
deriving Repr, DecidableEq

def StoreError.message : StoreError → String
  | folder path => "Failed to create cache directory: " ++ path
  | serialize => "Failed to serialize cache record"
  | write path => "Failed to write cache file: " ++ path
  | move path => "Failed to move cache file into place: " ++ path

structure FileCache where
  dir : String
deriving Repr, DecidableEq, Inhabited

namespace FileCache

def entryPath (c : FileCache) (key : String) : String := Path.join c.dir (key ++ ".json")

def read? (c : FileCache) (d : Disk) (key : String) : Option Bundle := do
  let r ← CacheRecord.ofBytes? (← d.read? (c.entryPath key))
  if r.format = CacheRecord.currentFormat ∧ r.key = key then some r.bundle else none

/-- Writes a record beside its place and moves it there. The folder is made if there is none; a
record that cannot be moved is removed again. -/
def store (c : FileCache) (stamp : Stamp) (key : String) (bundle : Bundle) (d : Disk) :
    Except StoreError Unit × Disk :=
  match d.makeFolders c.dir with
  | (false, d) => (.error (.folder c.dir), d)
  | (true, d) =>
    match (CacheRecord.mk CacheRecord.currentFormat key stamp.time bundle).toBytes? with
    | none => (.error .serialize, d)
    | some bytes =>
      let beside := Path.join c.dir (key ++ "." ++ stamp.suffix ++ ".tmp")
      match d.write? beside bytes with
      | none => (.error (.write beside), d)
      | some d =>
        match d.move? beside (c.entryPath key) with
        | some d => (.ok (), d)
        | none => (.error (.move (c.entryPath key)), (d.remove? beside).getD d)

end FileCache
end ProductTemplates
