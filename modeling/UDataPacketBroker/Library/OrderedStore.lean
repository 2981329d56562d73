/-
# Key-ordered stores

What a program may rely on in a store that keeps values under ordered keys:
point reads, puts, deletes, range deletes, and iteration in key order.
`OrderedStore` states it as a class, so that a model of the program works over
every store that behaves this way; `SortedTable`, a sorted list, is one.

A store is known by its reads: two stores with the same reads have the same
entries (`entries_congr`), and an update is an update of the read function
(`get_put`, `get_delete`, `get_deleteRange`).
-/

import Mathlib.Data.List.Sort
import Mathlib.Data.List.Pairwise
import Mathlib.Logic.Function.Basic
import UDataPacketBroker.Library.Pointwise

namespace UDataPacketBroker
namespace Library

/-- A store of values under linearly ordered keys. -/
class OrderedStore (S : Type) (K V : outParam Type) [LinearOrder K] where
  /-- The store that holds nothing. -/
  empty : S
  get : S → K → Option V
  put : S → K → V → S
  delete : S → K → S
  /-- Deletes the keys of a half-open range. -/
  deleteRange : S → K → K → S
  /-- The entries, in the order an iterator visits them. -/
  entries : S → List (K × V)
  get_empty (k : K) : get empty k = none
  get_put (s : S) (k : K) (v : V) : get (put s k v) = Function.update (get s) k (some v)
  get_delete (s : S) (k : K) : get (delete s k) = Function.update (get s) k none
  get_deleteRange (s : S) (a b k : K) :
    get (deleteRange s a b) k = if a ≤ k ∧ k < b then none else get s k
  entries_sorted (s : S) : (entries s).Pairwise fun e e' => e.1 < e'.1
  mem_entries (s : S) (k : K) (v : V) : (k, v) ∈ entries s ↔ get s k = some v

namespace OrderedStore

variable {S K V : Type} [LinearOrder K] [OrderedStore S K V]

/-- A read after a put, for whichever way keys are compared. -/
theorem get_put_apply [DecidableEq K] (s : S) (k : K) (v : V) (k' : K) :
    get (put s k v) k' = if k' = k then some v else get s k' := by
  rw [get_put]
  by_cases h : k' = k <;> simp [h]

/-- A read after a delete, for whichever way keys are compared. -/
theorem get_delete_apply [DecidableEq K] (s : S) (k k' : K) :
    get (delete s k) k' = if k' = k then none else get s k' := by
  rw [get_delete]
  by_cases h : k' = k <;> simp [h]

/-- A put updates the reads, for whichever way keys are compared. -/
theorem get_put_eq_update [DecidableEq K] (s : S) (k : K) (v : V) :
    get (put s k v) = Function.update (get s) k (some v) := by
  funext k'
  rw [get_put_apply, Function.update_apply]

/-- A delete updates the reads, for whichever way keys are compared. -/
theorem get_delete_eq_update [DecidableEq K] (s : S) (k : K) :
    get (delete s k) = Function.update (get s) k none := by
  funext k'
  rw [get_delete_apply, Function.update_apply]

/-- One put after another. -/
def putAll (s : S) (l : List (K × V)) : S := l.foldl (fun s e => put s e.1 e.2) s

/-- **A read after a list of puts** finds the last value put under the key. -/
theorem get_putAll [DecidableEq K] (s : S) (l : List (K × V)) (k : K) :
    get (putAll s l) k = (updatesAt l k).getLast?.or (get s k) := by
  rw [← foldl_update_some_apply]
  induction l generalizing s with
  | nil => rfl
  | cons e l ih =>
      rw [List.foldl_cons, ← get_put_eq_update, ← ih]
      rfl

/-- Sorted lists of entries with the same members are equal. -/
theorem eq_of_sorted_of_mem {l l' : List (K × V)} (hl : l.Pairwise fun e e' => e.1 < e'.1)
    (hl' : l'.Pairwise fun e e' => e.1 < e'.1) (h : ∀ e, e ∈ l ↔ e ∈ l') : l = l' := by
  have hnodup {m : List (K × V)} (hm : m.Pairwise fun e e' => e.1 < e'.1) : m.Nodup :=
    hm.imp fun hlt heq => absurd (congrArg Prod.fst heq) hlt.ne
  have hperm : l.Perm l' := (List.perm_ext_iff_of_nodup (hnodup hl) (hnodup hl')).2 h
  exact hperm.eq_of_pairwise (fun _ _ _ _ hab hba => absurd hba (lt_asymm hab)) hl hl'

/-- **A store is known by its reads.** -/
theorem entries_congr {s s' : S} (h : get s = get s') : entries s = entries s' := by
  refine eq_of_sorted_of_mem (entries_sorted s) (entries_sorted s') fun e => ?_
  rw [mem_entries, mem_entries, h]

/-- Nothing is visited in the empty store. -/
theorem entries_empty : entries (empty : S) = [] := by
  refine List.eq_nil_iff_forall_not_mem.2 fun e he => ?_
  rw [mem_entries, get_empty] at he
  cases he

/-- No key is visited twice. -/
theorem nodup_keys (s : S) : ((entries s).map Prod.fst).Nodup := by
  rw [List.Nodup, List.pairwise_map]
  exact (entries_sorted s).imp fun h => h.ne

/-- What an iterator visits from the first key not below `k` on. -/
def seek (s : S) (k : K) : List (K × V) := (entries s).dropWhile fun e => e.1 < k

/-- A seek goes up. -/
theorem seek_sorted (s : S) (k : K) : (seek s k).Pairwise fun e e' => e.1 < e'.1 :=
  (entries_sorted s).sublist (List.dropWhile_sublist _)

/-- Seeking skips exactly the keys below the target. -/
theorem seek_eq_filter (s : S) (k : K) : seek s k = (entries s).filter fun e => k ≤ e.1 := by
  have hsorted := entries_sorted s
  unfold seek
  generalize entries s = l at hsorted ⊢
  induction l with
  | nil => rfl
  | cons e l ih =>
      rw [List.pairwise_cons] at hsorted
      by_cases he : e.1 < k
      · rw [List.dropWhile_cons_of_pos (by simpa using he), ih hsorted.2,
          List.filter_cons_of_neg (by simpa using he)]
      · have hall : ∀ e' ∈ e :: l, decide (k ≤ e'.1) = true := by
          intro e' he'
          rcases List.mem_cons.1 he' with rfl | hmem
          · simpa using he
          · exact decide_eq_true (le_trans (not_lt.1 he) (hsorted.1 e' hmem).le)
        rw [List.dropWhile_cons_of_neg (by simpa using he), List.filter_eq_self.2 hall]

/-- A seek passes the entries from its key on. -/
theorem mem_seek (s : S) (k : K) (e : K × V) :
    e ∈ seek s k ↔ get s e.1 = some e.2 ∧ k ≤ e.1 := by
  rw [seek_eq_filter, List.mem_filter, mem_entries, decide_eq_true_iff]

/-- Seeking a key that is there finds it first. -/
theorem head?_seek {s : S} {k : K} {v : V} (h : get s k = some v) :
    (seek s k).head? = some (k, v) := by
  have hmem : (k, v) ∈ seek s k := (mem_seek s k (k, v)).2 ⟨h, le_rfl⟩
  have hsorted := seek_sorted s k
  have hlow (e : K × V) (he : e ∈ seek s k) : k ≤ e.1 := ((mem_seek s k e).1 he).2
  cases hseek : seek s k with
  | nil => exact absurd (hseek ▸ hmem) List.not_mem_nil
  | cons e l =>
      rw [hseek] at hmem hsorted hlow
      rcases List.mem_cons.1 hmem with heq | htail
      · rw [List.head?_cons, heq]
      · have hlt : e.1 < k := (List.pairwise_cons.1 hsorted).1 _ htail
        exact absurd (hlow e List.mem_cons_self) (not_le.2 hlt)

/-- A property that an earlier entry inherits from a later one holds on a front of the
list, and reading up to the first failure finds all that have it. -/
theorem takeWhile_eq_filter {α : Type} {p : α → Bool} {l : List α}
    (h : l.Pairwise fun a b => p b = true → p a = true) : l.takeWhile p = l.filter p := by
  induction l with
  | nil => rfl
  | cons a l ih =>
      obtain ⟨hhead, htail⟩ := List.pairwise_cons.1 h
      by_cases ha : p a = true
      · rw [List.takeWhile_cons_of_pos ha, List.filter_cons_of_pos ha, ih htail]
      · have hnone : l.filter p = [] :=
          List.filter_eq_nil_iff.2 fun b hb hpb => ha (hhead b hb hpb)
        rw [List.takeWhile_cons_of_neg ha, List.filter_cons_of_neg ha, hnone]

end OrderedStore

/-! ### A sorted list is one -/

/-- A list of entries, sorted by key. -/
structure SortedTable (K V : Type) [LinearOrder K] where
  entries : List (K × V)
  sorted : entries.Pairwise fun e e' => e.1 < e'.1

namespace SortedTable

variable {K V : Type} [LinearOrder K]

/-- The entries whose keys satisfy `p`. -/
def restrict (s : SortedTable K V) (p : K → Bool) : SortedTable K V where
  entries := s.entries.filter fun e => p e.1
  sorted := s.sorted.sublist List.filter_sublist

def get (s : SortedTable K V) (k : K) : Option V :=
  (s.entries.find? fun e => e.1 = k).map Prod.snd

def put (s : SortedTable K V) (k : K) (v : V) : SortedTable K V where
  entries := (s.restrict (· < k)).entries ++ (k, v) :: (s.restrict (k < ·)).entries
  sorted := by
    refine List.pairwise_append.2 ⟨(s.restrict (· < k)).sorted, List.pairwise_cons.2
      ⟨fun e he => ?_, (s.restrict (k < ·)).sorted⟩, fun e he e' he' => ?_⟩
    · simpa using (List.mem_filter.1 he).2
    · have hlt : e.1 < k := by simpa using (List.mem_filter.1 he).2
      rcases List.mem_cons.1 he' with rfl | he'
      · exact hlt
      · exact lt_trans hlt (by simpa using (List.mem_filter.1 he').2)

/-- Reading a table is looking up its entries. -/
theorem mem_entries (s : SortedTable K V) (k : K) (v : V) :
    (k, v) ∈ s.entries ↔ s.get k = some v := by
  rw [get, Option.map_eq_some_iff]
  constructor
  · intro h
    cases hfind : s.entries.find? fun e => e.1 = k with
    | none => exact absurd (List.find?_eq_none.1 hfind (k, v) h) (by simp)
    | some e =>
        have hk : e.1 = k := by simpa using List.find?_some hfind
        have hmem := List.mem_of_find?_eq_some hfind
        -- two entries of one key are the same entry
        have heq : e = (k, v) := by
          by_contra hne
          have hkeys : s.entries.Pairwise fun a b => a.1 ≠ b.1 := s.sorted.imp fun hlt => hlt.ne
          have : Std.Symm fun a b : K × V => a.1 ≠ b.1 := ⟨fun _ _ hab => hab.symm⟩
          exact hkeys.forall hmem h hne hk
        exact ⟨e, rfl, by rw [heq]⟩
  · rintro ⟨e, hfind, rfl⟩
    have hk : e.1 = k := by simpa using List.find?_some hfind
    rw [← hk]
    exact List.mem_of_find?_eq_some hfind

/-- Reading a table whose entries satisfy a membership description. -/
theorem get_eq_of_mem_iff {t : SortedTable K V} {k : K} {o : Option V}
    (h : ∀ v, (k, v) ∈ t.entries ↔ o = some v) : t.get k = o := by
  refine Option.ext fun v => ?_
  rw [← mem_entries, h]

/-- A restricted table has the entries that may stay. -/
theorem get_restrict (s : SortedTable K V) (p : K → Bool) (k : K) :
    (s.restrict p).get k = if p k then s.get k else none := by
  refine get_eq_of_mem_iff fun v => ?_
  rw [restrict, List.mem_filter, mem_entries]
  by_cases hp : p k <;> simp [hp]

/-- A put changes the value of its key only. -/
theorem get_put (s : SortedTable K V) (k : K) (v : V) :
    (s.put k v).get = Function.update s.get k (some v) := by
  funext k'
  refine get_eq_of_mem_iff fun v' => ?_
  have hlow : (k', v') ∈ (s.restrict (· < k)).entries ↔ k' < k ∧ s.get k' = some v' := by
    rw [mem_entries, get_restrict]; by_cases h : k' < k <;> simp [h]
  have hhigh : (k', v') ∈ (s.restrict (k < ·)).entries ↔ k < k' ∧ s.get k' = some v' := by
    rw [mem_entries, get_restrict]; by_cases h : k < k' <;> simp [h]
  rw [put, List.mem_append, List.mem_cons, hlow, hhigh, Prod.mk.injEq]
  rcases lt_trichotomy k' k with h | rfl | h
  · simp [h, h.ne, lt_asymm h]
  · simp [eq_comm]
  · simp [h, h.ne', lt_asymm h]

instance : OrderedStore (SortedTable K V) K V where
  empty := ⟨[], .nil⟩
  get := get
  put := put
  delete s k := s.restrict (· ≠ k)
  deleteRange s a b := s.restrict fun k => ¬ (a ≤ k ∧ k < b)
  entries := entries
  get_empty _ := rfl
  get_put := get_put
  get_delete s k := by
    funext k'
    rw [get_restrict]
    by_cases h : k' = k <;> simp [h]
  get_deleteRange s a b k := by
    rw [get_restrict]
    by_cases h : a ≤ k ∧ k < b
    · simp [h]
    · rw [if_neg h, if_pos (decide_eq_true h)]
  entries_sorted := sorted
  mem_entries := mem_entries

end SortedTable

end Library
end UDataPacketBroker
