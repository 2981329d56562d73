/-
# Tables filled by insert-or-update

An unordered map used as an accumulator: `try_emplace` puts a key in with an
initial value, or finds it there and lets the caller update the value.  The
table lists its keys in the order they first appeared; a program that walks an
unordered map sees some permutation of that list.
-/

import Mathlib.Logic.Function.Basic
import Mathlib.Data.List.Perm.Basic

namespace UDataPacketBroker
namespace Library

/-- Distinct keys with their values, oldest key first. -/
structure HashTable (K A : Type) where
  entries : List (K × A)
  nodup : (entries.map Prod.fst).Nodup

namespace HashTable

variable {K A : Type} [DecidableEq K]

def empty : HashTable K A := ⟨[], List.nodup_nil⟩

/-- The value of a key in a list of entries. -/
def lookup : List (K × A) → K → Option A
  | [], _ => none
  | (k', a) :: l, k => if k' = k then some a else lookup l k

def find? (t : HashTable K A) (k : K) : Option A := lookup t.entries k

/-- `try_emplace`, and on a key already there the update `f`. -/
def upsert (k : K) (init : A) (f : A → A) : List (K × A) → List (K × A)
  | [] => [(k, init)]
  | (k', a) :: l => if k' = k then (k', f a) :: l else (k', a) :: upsert k init f l

/-- **A new key goes last,** and one that is there stays where it is. -/
theorem map_fst_upsert (k : K) (init : A) (f : A → A) (l : List (K × A)) :
    (upsert k init f l).map Prod.fst =
      if k ∈ l.map Prod.fst then l.map Prod.fst else l.map Prod.fst ++ [k] := by
  induction l with
  | nil => simp [upsert]
  | cons e l ih =>
      by_cases h : e.1 = k
      · simp [upsert, h]
      · have hne : k ≠ e.1 := Ne.symm h
        simp only [upsert, h, if_false, List.map_cons, ih, List.mem_cons, hne, false_or]
        split_ifs <;> simp

/-- **Only the value of the key changes.** -/
theorem lookup_upsert (k : K) (init : A) (f : A → A) (l : List (K × A)) :
    lookup (upsert k init f l) =
      Function.update (lookup l) k (some ((lookup l k).elim init f)) := by
  induction l with
  | nil =>
      funext k'
      by_cases h : k' = k
      · simp [upsert, lookup, h]
      · simp [upsert, lookup, h, Ne.symm h]
  | cons e l ih =>
      funext k'
      by_cases h : e.1 = k
      · by_cases h' : k' = k
        · simp [upsert, lookup, h, h']
        · simp [upsert, lookup, h, h', Ne.symm h']
      · by_cases h' : e.1 = k'
        · have : k' ≠ k := fun hk => h (h'.trans hk)
          simp [upsert, lookup, h', this]
        · by_cases h'' : k' = k
          · subst h''; simp [upsert, lookup, h, ih]
          · simp [upsert, lookup, h, h', h'', ih]

/-- `try_emplace` as an operation of tables. -/
def tryEmplace (t : HashTable K A) (k : K) (init : A) (f : A → A) : HashTable K A where
  entries := upsert k init f t.entries
  nodup := by
    rw [map_fst_upsert]
    split_ifs with h
    · exact t.nodup
    · exact List.nodup_append.2 ⟨t.nodup, by simp, fun a ha b hb hab =>
        h (by rw [← List.mem_singleton.1 hb, ← hab]; exact ha)⟩

/-- **What a table holds after `try_emplace`.** -/
theorem find?_tryEmplace (t : HashTable K A) (k : K) (init : A) (f : A → A) :
    (t.tryEmplace k init f).find? =
      Function.update t.find? k (some ((t.find? k).elim init f)) :=
  lookup_upsert k init f t.entries

/-- Looking up finds the entries, because keys are distinct. -/
theorem mem_entries (t : HashTable K A) (k : K) (a : A) :
    (k, a) ∈ t.entries ↔ t.find? k = some a := by
  obtain ⟨l, hl⟩ := t
  unfold find?
  induction l with
  | nil => simp [lookup]
  | cons e l ih =>
      obtain ⟨hhead, htail⟩ := List.nodup_cons.1 (show (e.1 :: l.map Prod.fst).Nodup from hl)
      have ih := ih htail
      by_cases h : e.1 = k
      · have hnot : (k, a) ∉ l := fun hmem => hhead (h ▸ List.mem_map_of_mem hmem)
        have heq : (k, a) = e ↔ e.2 = a := by
          rw [Prod.ext_iff]; simp [h, eq_comm]
        simp [lookup, h, hnot, heq]
      · have hne : (k, a) ≠ e := fun heq => h (heq ▸ rfl)
        simpa [lookup, h, hne] using ih

end HashTable

end Library
end UDataPacketBroker
