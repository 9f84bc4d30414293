import Mathlib.Data.List.Count

/-!
Tables that link a record twice: in one list of all, and in the chain of its bucket. What is said of
a record is how often each list holds it, and linking or unlinking another leaves that as it is.
-/

namespace Chained

universe u v

variable {Record : Type u} {Bucket : Type v} [DecidableEq Record]

/-- The list of all records, and the chains. -/
structure Table (Record : Type u) (Bucket : Type v) where
  entries : List Record
  chain : Bucket → List Record

/-- The record is once in the list and once in the chain of its bucket, and in no other chain. -/
structure Linked (table : Table Record Bucket) (record : Record) (bucket : Bucket) : Prop where
  listed : table.entries.count record = 1
  chained : (table.chain bucket).count record = 1
  alone : ∀ other, other ≠ bucket → (table.chain other).count record = 0

structure Unlinked (table : Table Record Bucket) (record : Record) : Prop where
  unlisted : table.entries.count record = 0
  unchained : ∀ bucket, (table.chain bucket).count record = 0

/-- Link a record: at the end of the list, and at the head of its chain. -/
def link [DecidableEq Bucket] (record : Record) (bucket : Bucket) (table : Table Record Bucket) :
    Table Record Bucket where
  entries := table.entries ++ [record]
  chain := Function.update table.chain bucket (record :: table.chain bucket)

def unlink (record : Record) (table : Table Record Bucket) : Table Record Bucket where
  entries := table.entries.erase record
  chain bucket := (table.chain bucket).erase record

def empty : Table Record Bucket := ⟨[], fun _ => []⟩

variable {table : Table Record Bucket} {record other : Record} {bucket place : Bucket}

theorem unlinked_empty (record : Record) : Unlinked (empty : Table Record Bucket) record where
  unlisted := rfl
  unchained _ := rfl

theorem Unlinked.link [DecidableEq Bucket] (unlinked : Unlinked table record) :
    Linked (link record bucket table) record bucket where
  listed := by
    simp only [Chained.link, List.count_append, unlinked.unlisted, List.count_singleton_self]
  chained := by
    simp only [Chained.link, Function.update_self, List.count_cons_self,
      unlinked.unchained bucket]
  alone place differ := by
    simp only [Chained.link, Function.update_of_ne differ]
    exact unlinked.unchained place

theorem Linked.unlink (linked : Linked table record bucket) :
    Unlinked (unlink record table) record where
  unlisted := by simp only [Chained.unlink, List.count_erase_self, linked.listed]
  unchained place := by
    simp only [Chained.unlink, List.count_erase_self]
    by_cases same : place = bucket
    · rw [same, linked.chained]
    · rw [linked.alone place same]

section Other

variable (differ : other ≠ record)

include differ

theorem entries_count_link [DecidableEq Bucket] :
    (link record bucket table).entries.count other = table.entries.count other := by
  have fresh : [record].count other = 0 := List.count_eq_zero.mpr (by simpa using differ)
  simp only [link, List.count_append, fresh, Nat.add_zero]

theorem chain_count_link [DecidableEq Bucket] (place : Bucket) :
    ((link record bucket table).chain place).count other = (table.chain place).count other := by
  by_cases same : place = bucket
  · simp only [link, same, Function.update_self, List.count_cons_of_ne differ.symm]
  · simp only [link, Function.update_of_ne same]

theorem entries_count_unlink :
    (unlink record table).entries.count other = table.entries.count other :=
  List.count_erase_of_ne differ

theorem chain_count_unlink (place : Bucket) :
    ((unlink record table).chain place).count other = (table.chain place).count other :=
  List.count_erase_of_ne differ

theorem Linked.link_other [DecidableEq Bucket] (linked : Linked table other place) :
    Linked (Chained.link record bucket table) other place where
  listed := (entries_count_link differ).trans linked.listed
  chained := (chain_count_link differ place).trans linked.chained
  alone elsewhere apart := (chain_count_link differ elsewhere).trans (linked.alone elsewhere apart)

theorem Unlinked.link_other [DecidableEq Bucket] (unlinked : Unlinked table other) :
    Unlinked (Chained.link record bucket table) other where
  unlisted := (entries_count_link differ).trans unlinked.unlisted
  unchained place := (chain_count_link differ place).trans (unlinked.unchained place)

theorem Linked.unlink_other (linked : Linked table other place) :
    Linked (Chained.unlink record table) other place where
  listed := (entries_count_unlink differ).trans linked.listed
  chained := (chain_count_unlink differ place).trans linked.chained
  alone elsewhere apart :=
    (chain_count_unlink differ elsewhere).trans (linked.alone elsewhere apart)

theorem Unlinked.unlink_other (unlinked : Unlinked table other) :
    Unlinked (Chained.unlink record table) other where
  unlisted := (entries_count_unlink differ).trans unlinked.unlisted
  unchained place := (chain_count_unlink differ place).trans (unlinked.unchained place)

end Other

end Chained
