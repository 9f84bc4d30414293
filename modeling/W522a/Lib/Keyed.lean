import Mathlib.Data.List.Nodup
import Mathlib.Data.List.Perm.Basic

/-!
Tables of records with distinct keys. Looking a record up splits the table: up to order it is that
record and the rest, and so what holds of every order of a table is kept by one argument on the rest.
-/

namespace Keyed

universe u v

variable {Record : Type u} {Key : Type v} [DecidableEq Key] {key : Record → Key}

def find (key : Record → Key) (table : List Record) (name : Key) : Option Record :=
  table.find? fun record => key record = name

def remove (key : Record → Key) (table : List Record) (name : Key) : List Record :=
  table.filter fun record => key record ≠ name

def replace (key : Record → Key) (table : List Record) (changed : Record) : List Record :=
  table.map fun record => if key record = key changed then changed else record

def Distinct (key : Record → Key) (table : List Record) : Prop := (table.map key).Nodup

variable {table : List Record} {name : Key} {record : Record}

theorem find_cons (head : Record) (rest : List Record) (name : Key) :
    find key (head :: rest) name = if key head = name then some head else find key rest name := by
  by_cases here : key head = name
  · simp [find, here]
  · simp [find, here]

theorem mem_of_find (found : find key table name = some record) : record ∈ table :=
  List.mem_of_find?_eq_some found

theorem key_of_find (found : find key table name = some record) : key record = name := by
  simpa using List.find?_some found

theorem find_of_mem (distinct : Distinct key table) (member : record ∈ table) :
    find key table (key record) = some record := by
  induction table with
  | nil => cases member
  | cons head rest induction =>
    obtain ⟨fresh, later⟩ := List.nodup_cons.mp distinct
    rcases List.mem_cons.mp member with rfl | old
    · simp [find]
    · have differ : key head ≠ key record := by
        intro same
        exact fresh (same ▸ List.mem_map_of_mem old)
      simpa [find, differ] using induction later old

theorem absent_of_find (missing : find key table name = none) : name ∉ table.map key := by
  intro member
  obtain ⟨record, found, rfl⟩ := List.mem_map.mp member
  exact List.find?_eq_none.mp missing record found (by simp)

theorem mem_remove {other : Record} :
    other ∈ remove key table name ↔ other ∈ table ∧ key other ≠ name := by
  rw [remove, List.mem_filter, decide_eq_true_eq]

theorem find_remove {other : Key} (differ : other ≠ name) :
    find key (remove key table name) other = find key table other := by
  rw [find, remove, List.find?_filter, find]
  congr 1
  funext record
  by_cases here : key record = other
  · simp [here, differ]
  · simp [here]

theorem remove_absent (absent : name ∉ table.map key) : remove key table name = table := by
  refine List.filter_eq_self.mpr fun record member => ?_
  rw [decide_eq_true_eq]
  rintro rfl
  exact absent (List.mem_map_of_mem member)

theorem replace_absent (absent : key record ∉ table.map key) :
    replace key table record = table := by
  rw [replace]
  refine (List.map_congr_left fun other member => ?_).trans (List.map_id table)
  rw [if_neg, id]
  intro same
  exact absent (same ▸ List.mem_map_of_mem member)

theorem replace_concat {old : Record} (same : key old = key record)
    (absent : key record ∉ table.map key) :
    replace key (table ++ [old]) record = table ++ [record] := by
  have before : replace key table record = table := replace_absent absent
  rw [replace, List.map_append, ← replace, before, List.map_singleton, if_pos same]

omit [DecidableEq Key] in
theorem Distinct.tail {head : Record} (distinct : Distinct key (head :: table)) :
    Distinct key table := (List.nodup_cons.mp distinct).2

omit [DecidableEq Key] in
theorem Distinct.nodup (distinct : Distinct key table) : table.Nodup :=
  List.Nodup.of_map key distinct

theorem Distinct.eq_of_key {other : Record} (distinct : Distinct key table)
    (member : record ∈ table) (present : other ∈ table) (same : key other = key record) :
    other = record := by
  have found := find_of_mem distinct present
  rw [same, find_of_mem distinct member] at found
  exact (Option.some.inj found).symm

omit [DecidableEq Key] in
theorem Distinct.sublist {rest : List Record} (distinct : Distinct key table)
    (fewer : rest.Sublist table) : Distinct key rest :=
  List.Nodup.sublist (fewer.map key) distinct

omit [DecidableEq Key] in
/-- A record that a walk of so many turns meets is met as well when others are taken away. -/
theorem Distinct.mem_take {rest : List Record} {most : Nat} (distinct : Distinct key table)
    (fewer : rest.Sublist table) (present : record ∈ rest) (met : record ∈ table.take most) :
    record ∈ rest.take most := by
  induction fewer generalizing most with
  | slnil => cases present
  | @cons rest table head fewer induction =>
    have fresh := (List.nodup_cons.mp distinct.nodup).1
    cases most with
    | zero => cases met
    | succ most =>
      rcases List.mem_cons.mp met with rfl | met
      · exact absurd (fewer.subset present) fresh
      · have later := induction distinct.tail present met
        exact (List.take_sublist_take_left (Nat.le_succ most)).subset later
  | @cons_cons rest table head fewer induction =>
    cases most with
    | zero => cases met
    | succ most =>
      rcases List.mem_cons.mp met with rfl | met
      · exact List.mem_cons_self
      · rcases List.mem_cons.mp present with rfl | present
        · exact List.mem_cons_self
        · exact List.mem_cons_of_mem _ (induction distinct.tail present met)

theorem perm_remove (distinct : Distinct key table) (found : find key table name = some record) :
    table.Perm (record :: remove key table name) := by
  induction table with
  | nil => cases found
  | cons head rest induction =>
    by_cases here : key head = name
    · have fresh : key head ∉ rest.map key := (List.nodup_cons.mp distinct).1
      have same : head = record := by simpa [find, here] using found
      rw [remove, List.filter_cons_of_neg (by simpa using here), ← remove,
        remove_absent (here ▸ fresh), same]
    · have later : find key rest name = some record := by simpa [find, here] using found
      have split := induction distinct.tail later
      rw [remove, List.filter_cons_of_pos (by simpa using here), ← remove]
      exact (split.cons head).trans (List.Perm.swap record head _)

theorem perm_replace (distinct : Distinct key table)
    (found : find key table (key record) ≠ none) :
    (replace key table record).Perm (record :: remove key table (key record)) := by
  induction table with
  | nil => exact absurd rfl found
  | cons head rest induction =>
    by_cases here : key head = key record
    · have fresh : key record ∉ rest.map key := here ▸ (List.nodup_cons.mp distinct).1
      rw [replace, List.map_cons, if_pos here, ← replace, replace_absent fresh, remove,
        List.filter_cons_of_neg (by simpa using here), ← remove, remove_absent fresh]
    · have later : find key rest (key record) ≠ none := by simpa [find, here] using found
      have split := induction distinct.tail later
      rw [replace, List.map_cons, if_neg here, ← replace, remove,
        List.filter_cons_of_pos (by simpa using here), ← remove]
      exact (split.cons head).trans (List.Perm.swap record head _)

theorem mem_replace {changed : Record} (member : record ∈ replace key table changed) :
    record = changed ∨ record ∈ table ∧ key record ≠ key changed := by
  obtain ⟨old, present, same⟩ := List.mem_map.mp member
  split at same
  · exact Or.inl same.symm
  · next other => exact Or.inr (same ▸ ⟨present, other⟩)

theorem Distinct.remove (distinct : Distinct key table) (name : Key) :
    Distinct key (remove key table name) :=
  List.Nodup.sublist (List.filter_sublist.map key) distinct

theorem map_replace (table : List Record) (record : Record) :
    (Keyed.replace key table record).map key = table.map key := by
  rw [Keyed.replace, List.map_map]
  refine List.map_congr_left fun other _ => ?_
  rw [Function.comp_apply]
  split
  · next same => exact same.symm
  · rfl

theorem find_replace (table : List Record) (record : Record) (name : Key) :
    find key (Keyed.replace key table record) name =
      (find key table name).map fun old => if key old = key record then record else old := by
  rw [find, Keyed.replace, List.find?_map, find]
  congr 2
  funext old
  rw [Function.comp_apply]
  split
  · next same => rw [same]
  · rfl

omit [DecidableEq Key] in
/-- The names stay when a record gives way to another of its name. -/
theorem map_replaceFirst [BEq Record] [LawfulBEq Record] {old : Record}
    (same : key record = key old) (table : List Record) :
    (table.replace old record).map key = table.map key := by
  induction table with
  | nil => rfl
  | cons head rest induction =>
    rw [List.replace_cons]
    split
    · next here => rw [List.map_cons, List.map_cons, same, eq_of_beq here]
    · rw [List.map_cons, List.map_cons, induction]

theorem mem_of_mem_replaceFirst [BEq Record] {old other : Record}
    (member : other ∈ table.replace old record) : other = record ∨ other ∈ table := by
  induction table with
  | nil => cases member
  | cons head rest induction =>
    rw [List.replace_cons] at member
    split at member
    · exact (List.mem_cons.mp member).imp_right (List.mem_cons_of_mem _)
    · rcases List.mem_cons.mp member with rfl | later
      · exact Or.inr List.mem_cons_self
      · exact (induction later).imp_right (List.mem_cons_of_mem _)

theorem Distinct.replace (distinct : Distinct key table) (record : Record) :
    Distinct key (Keyed.replace key table record) := by
  rw [Distinct, map_replace]
  exact distinct

omit [DecidableEq Key] in
theorem Distinct.concat (distinct : Distinct key table) (fresh : key record ∉ table.map key) :
    Distinct key (table ++ [record]) := by
  rw [Distinct, List.map_append, List.map_singleton, List.nodup_append]
  refine ⟨distinct, List.nodup_singleton _, ?_⟩
  rintro first member second other rfl
  exact fresh (List.mem_singleton.mp other ▸ member)

end Keyed
