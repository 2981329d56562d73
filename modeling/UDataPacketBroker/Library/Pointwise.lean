/-
# Families updated one member at a time

A list of updates, each naming the member of a family it changes and changing
it as a function of that member alone.  Then every member sees only the updates
that name it, in order (`foldl_update_apply`), and members nobody names are
left as they are.
-/

import Mathlib.Data.List.Induction
import UDataPacketBroker.Library.HashTable

namespace UDataPacketBroker
namespace Library

variable {K A β : Type} [DecidableEq K]

/-- The updates of a list that name `k`. -/
def updatesAt (l : List (K × A)) (k : K) : List A :=
  l.filterMap fun e => if e.1 = k then some e.2 else none

/-- The first update, if it is at the key. -/
theorem updatesAt_cons (e : K × A) (l : List (K × A)) (k : K) :
    updatesAt (e :: l) k = if e.1 = k then e.2 :: updatesAt l k else updatesAt l k := by
  unfold updatesAt
  split_ifs with h <;> simp [h]

/-- The updates at a key, in two parts. -/
theorem updatesAt_append (l m : List (K × A)) (k : K) :
    updatesAt (l ++ m) k = updatesAt l k ++ updatesAt m k := List.filterMap_append

/-- An update at a key is one of the list. -/
theorem mem_updatesAt {l : List (K × A)} {k : K} {a : A} : a ∈ updatesAt l k ↔ (k, a) ∈ l := by
  unfold updatesAt
  rw [List.mem_filterMap]
  constructor
  · rintro ⟨e, he, h⟩
    split_ifs at h with hk
    obtain rfl := Option.some.inj h
    exact hk ▸ he
  · intro h
    exact ⟨(k, a), h, by simp⟩

/-- Renaming the members, each value together with the name of its own. -/
theorem updatesAt_map {K' B : Type} [DecidableEq K'] {f : K → K'} (hf : Function.Injective f)
    (g : K → A → B) (l : List (K × A)) (k : K) :
    updatesAt (l.map fun e => (f e.1, g e.1 e.2)) (f k) = (updatesAt l k).map (g k) := by
  induction l with
  | nil => rfl
  | cons e l ih =>
      rw [List.map_cons, updatesAt_cons, updatesAt_cons, ih]
      by_cases h : e.1 = k
      · rw [if_pos (congrArg f h), if_pos h, h, List.map_cons]
      · rw [if_neg (hf.ne h), if_neg h]

/-- The updates at a key, under another view. -/
theorem updatesAt_map_snd {B : Type} (g : K → A → B) (l : List (K × A)) (k : K) :
    updatesAt (l.map fun e => (e.1, g e.1 e.2)) k = (updatesAt l k).map (g k) :=
  updatesAt_map Function.injective_id g l k

/-- **Each member sees the updates that name it, in order.** -/
theorem foldl_update_apply (g : β → A → β) (l : List (K × A)) (f : K → β) (k : K) :
    l.foldl (fun f e => Function.update f e.1 (g (f e.1) e.2)) f k
      = (updatesAt l k).foldl g (f k) := by
  induction l generalizing f with
  | nil => rfl
  | cons e l ih =>
      rw [List.foldl_cons, ih, updatesAt_cons]
      split_ifs with h
      · rw [h, Function.update_self, List.foldl_cons]
      · rw [Function.update_of_ne (Ne.symm h)]

/-- Members overwritten one after another hold the last value they were given. -/
theorem foldl_update_some_apply {V : Type} (l : List (K × V)) (f : K → Option V) (k : K) :
    l.foldl (fun (f : K → Option V) e => Function.update f e.1 (some e.2)) f k
      = (updatesAt l k).getLast?.or (f k) := by
  have hlast (m : List V) (o : Option V) : m.foldl (fun _ v => some v) o = m.getLast?.or o := by
    induction m using List.reverseRecOn with
    | nil => rfl
    | append_singleton m v _ => simp
  rw [foldl_update_apply fun _ v => some v, hlast]

/-- The order of the list matters to a member only in the order of its own updates. -/
theorem updatesAt_perm {l m : List (K × A)} (h : l.Perm m) (k : K) :
    (updatesAt l k).Perm (updatesAt m k) := h.filterMap _

/-- With distinct names, a member is named at most once. -/
theorem updatesAt_of_nodup {l : List (K × A)} (h : (l.map Prod.fst).Nodup) (k : K) :
    updatesAt l k = (HashTable.lookup l k).toList := by
  induction l with
  | nil => rfl
  | cons e l ih =>
      obtain ⟨hhead, htail⟩ := List.nodup_cons.1 (show (e.1 :: l.map Prod.fst).Nodup from h)
      rw [updatesAt_cons, ih htail]
      by_cases hk : e.1 = k
      · have hnone : HashTable.lookup l k = none := by
          cases hl : HashTable.lookup l k with
          | none => rfl
          | some a =>
              have hmem := (HashTable.mem_entries ⟨l, htail⟩ k a).2 hl
              exact absurd (List.mem_map_of_mem hmem) (hk ▸ hhead)
        simp [HashTable.lookup, hk, hnone]
      · simp [HashTable.lookup, hk]

/-- With distinct names, the order of the list does not matter. -/
theorem updatesAt_eq_of_perm {l m : List (K × A)} (hperm : l.Perm m)
    (h : (l.map Prod.fst).Nodup) (k : K) : updatesAt l k = updatesAt m k := by
  have hupdates := updatesAt_perm hperm k
  rw [updatesAt_of_nodup h] at hupdates ⊢
  cases hlookup : HashTable.lookup l k with
  | none =>
      rw [hlookup, Option.toList_none] at hupdates
      rw [Option.toList_none, List.nil_perm.1 hupdates]
  | some a =>
      rw [hlookup, Option.toList_some] at hupdates
      rw [Option.toList_some, List.singleton_perm.1 hupdates]

end Library
end UDataPacketBroker
