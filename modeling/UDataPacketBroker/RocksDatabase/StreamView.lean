/-
# One stream of the store

What the store is for, one stream at a time and without bytes: the records
under their sequence numbers, and the registry entry that summarises them.
A write appends a record and widens the entry; a truncation at a cutoff drops
the records below it and advances or reaps the entry.

`StreamView.Valid` is the registry invariant: a stream without an entry has no
record, and an entry bounds the stored numbers from below and carries the
largest of them.  Both operations keep it.
-/

import UDataPacketBroker.RocksDatabase
import Mathlib.Data.List.Induction
import Mathlib.Order.Bounds.Basic
import Mathlib.Order.MinMax

namespace UDataPacketBroker
namespace RocksDatabase

open Library

/-- What the store keeps of a packet besides its sequence number. -/
structure Record where
  receivedAt : Int64
  packet : Bytes
deriving DecidableEq, Repr

namespace Aggregate

/-- The summary of one packet. -/
def single (s : UInt64) (receivedAt : Int64) : Aggregate := ⟨s, s, receivedAt⟩

/-- The summary of two groups of packets. -/
def merge (a b : Aggregate) : Aggregate where
  minSequenceNumber := min a.minSequenceNumber b.minSequenceNumber
  maxSequenceNumber := max a.maxSequenceNumber b.maxSequenceNumber
  lastReceivedNanoSeconds := max a.lastReceivedNanoSeconds b.lastReceivedNanoSeconds

/-- Widening may be grouped. -/
theorem merge_assoc (a b c : Aggregate) : (a.merge b).merge c = a.merge (b.merge c) := by
  simp [merge, min_assoc, max_assoc]

/-- It does not matter which widens which. -/
theorem merge_comm (a b : Aggregate) : a.merge b = b.merge a := by
  simp [merge, min_comm, max_comm]

/-- An entry, absent or not, widened by one packet. -/
def widen (entry : Option Aggregate) (item : UInt64 × Record) : Option Aggregate :=
  some (entry.elim (single item.1 item.2.receivedAt)
    (·.merge (single item.1 item.2.receivedAt)))

/-- Widening an entry by packets is merging it with their own summary. -/
theorem foldl_widen_some (a : Aggregate) (items : List (UInt64 × Record)) :
    items.foldl widen (some a) = some ((items.foldl widen none).elim a a.merge) := by
  induction items using List.reverseRecOn with
  | nil => rfl
  | append_singleton items item ih =>
      rw [List.foldl_concat, List.foldl_concat, ih]
      cases items.foldl widen none with
      | none => rfl
      | some b => simp [widen, merge_assoc]

/-- **What takes the larger of two under `merge` is, of an entry, the largest of
what the entry was widened by.** -/
theorem isGreatest_foldl_widen {β : Type*} [LinearOrder β] (f : Aggregate → β)
    (hf : ∀ a b : Aggregate, f (a.merge b) = max (f a) (f b)) {items : List (UInt64 × Record)}
    {o : Option Aggregate} {e : Aggregate} (h : items.foldl widen o = some e) :
    IsGreatest {t | (∃ a, o = some a ∧ f a = t) ∨
      ∃ i ∈ items, f (single i.1 i.2.receivedAt) = t} (f e) := by
  induction items generalizing o with
  | nil =>
      refine ⟨Or.inl ⟨e, h, rfl⟩, ?_⟩
      rintro t (⟨a, ha, rfl⟩ | ⟨i, hi, -⟩)
      · rw [Option.some.inj (ha.symm.trans h)]
      · exact absurd hi List.not_mem_nil
  | cons i items ih =>
      obtain ⟨hmem, hub⟩ := ih h
      have hnew := hub (Or.inl ⟨_, rfl, rfl⟩)
      constructor
      · rcases hmem with ⟨a, ha, hlast⟩ | ⟨j, hj, hlast⟩
        · obtain rfl := Option.some.inj ha
          cases o with
          | none => exact Or.inr ⟨i, List.mem_cons_self, hlast⟩
          | some b =>
              rw [Option.elim_some, hf] at hlast
              rcases max_choice (f b) (f (single i.1 i.2.receivedAt)) with hmax | hmax
              · exact Or.inl ⟨b, rfl, hmax.symm.trans hlast⟩
              · exact Or.inr ⟨i, List.mem_cons_self, hmax.symm.trans hlast⟩
        · exact Or.inr ⟨j, List.mem_cons_of_mem i hj, hlast⟩
      · have hboth (b : Aggregate) (hb : o = some b) :
            f b ≤ f e ∧ f (single i.1 i.2.receivedAt) ≤ f e := by
          subst hb
          rw [Option.elim_some, hf] at hnew
          exact max_le_iff.1 hnew
        rintro t (⟨a, ha, rfl⟩ | ⟨j, hj, rfl⟩)
        · exact (hboth a ha).1
        · rcases List.mem_cons.1 hj with rfl | hj
          · cases o with
            | none => exact hnew
            | some b => exact (hboth b rfl).2
          · exact hub (Or.inr ⟨j, hj, rfl⟩)

/-- Only the empty list leaves no entry. -/
theorem foldl_widen_eq_none_iff {items : List (UInt64 × Record)} :
    items.foldl widen none = none ↔ items = [] := by
  constructor
  · intro h
    cases items with
    | nil => rfl
    | cons i items =>
        rw [List.foldl_cons, widen, foldl_widen_some] at h
        cases h
  · rintro rfl
    rfl

end Aggregate

/-- One stream: its records by sequence number, and its registry entry. -/
@[ext] structure StreamView where
  records : UInt64 → Option Record
  entry : Option Aggregate

namespace StreamView

/-- A stream nothing was written to. -/
def empty : StreamView := ⟨fun _ => none, none⟩

/-- One packet is written. -/
def append (v : StreamView) (item : UInt64 × Record) : StreamView where
  records := Function.update v.records item.1 (some item.2)
  entry := Aggregate.widen v.entry item

/-- A packet is put under its number. -/
@[simp] theorem records_append (v : StreamView) (item : UInt64 × Record) :
    (v.append item).records = Function.update v.records item.1 (some item.2) := rfl

/-- It widens the entry. -/
@[simp] theorem entry_append (v : StreamView) (item : UInt64 × Record) :
    (v.append item).entry = Aggregate.widen v.entry item := rfl

/-- A packet put into the records of a stream. -/
def putRecord (records : UInt64 → Option Record) (item : UInt64 × Record) :
    UInt64 → Option Record := Function.update records item.1 (some item.2)

/-- The effect on `v` of a write of `items` that saw the entry `seen`: the
registry gets the summary of the packets, merged with what was seen. -/
def write (seen : Option Aggregate) (items : List (UInt64 × Record)) (v : StreamView) :
    StreamView where
  records := items.foldl putRecord v.records
  entry := (items.foldl Aggregate.widen none).elim v.entry fun a => some (seen.elim a a.merge)

/-- Packets are put one after the other. -/
theorem records_foldl_append (items : List (UInt64 × Record)) (v : StreamView) :
    (items.foldl append v).records = items.foldl putRecord v.records := by
  induction items generalizing v with
  | nil => rfl
  | cons item items ih => exact ih (v.append item)

/-- They widen the entry one after the other. -/
theorem entry_foldl_append (items : List (UInt64 × Record)) (v : StreamView) :
    (items.foldl append v).entry = items.foldl Aggregate.widen v.entry := by
  induction items generalizing v with
  | nil => rfl
  | cons item items ih => exact ih (v.append item)

/-- The sequence numbers under which a stream holds packets. -/
def numbers (v : StreamView) : Set UInt64 := {s | ∃ r, v.records s = some r}

/-- The sequence numbers of packets to write. -/
def itemNumbers (items : List (UInt64 × Record)) : Set UInt64 := {s | ∃ i ∈ items, i.1 = s}

/-- **A write adds its numbers.** -/
theorem numbers_write (seen : Option Aggregate) (items : List (UInt64 × Record)) (v : StreamView) :
    (write seen items v).numbers = v.numbers ∪ itemNumbers items := by
  have hput (records : UInt64 → Option Record) (s : UInt64) :
      (∃ r, items.foldl putRecord records s = some r) ↔
        (∃ r, records s = some r) ∨ ∃ i ∈ items, i.1 = s := by
    induction items generalizing records with
    | nil => simp
    | cons i items ih =>
        rw [List.foldl_cons, ih]
        by_cases hs : i.1 = s
        · simp [putRecord, hs]
        · simp [putRecord, hs, Function.update_of_ne (Ne.symm hs)]
  exact Set.ext fun s => hput v.records s

/-- **A write that saw the stream as it is appends its packets one by one.** -/
theorem write_entry (items : List (UInt64 × Record)) (v : StreamView) :
    write v.entry items v = items.foldl append v := by
  refine StreamView.ext (records_foldl_append items v).symm ?_
  rw [entry_foldl_append, write]
  cases v.entry with
  | none => cases items.foldl Aggregate.widen none <;> rfl
  | some e =>
      rw [Aggregate.foldl_widen_some]
      cases items.foldl Aggregate.widen none with
      | none => rfl
      | some a => exact congrArg some (Aggregate.merge_comm a e)

/-- The effect on `v` of a truncation at `cutoff` that saw the entry `seen`. -/
def purge (seen : Option Aggregate) (cutoff : UInt64) (v : StreamView) : StreamView :=
  match seen with
  | none => v
  | some e =>
    if e.minSequenceNumber ≥ cutoff then v
    else
      { records := fun s => if s < cutoff then none else v.records s
        entry := if e.maxSequenceNumber < cutoff then none
          else some { e with minSequenceNumber := cutoff } }

/-- Without an entry nothing is purged. -/
@[simp] theorem purge_none (cutoff : UInt64) (v : StreamView) : purge none cutoff v = v := rfl

/-- An entry past the cutoff is left alone. -/
theorem purge_of_le {e : Aggregate} {cutoff : UInt64} (h : cutoff ≤ e.minSequenceNumber)
    (v : StreamView) : purge (some e) cutoff v = v := if_pos h

/-- An entry that starts before the cutoff starts there afterwards, or is gone. -/
theorem purge_of_lt {e : Aggregate} {cutoff : UInt64} (h : e.minSequenceNumber < cutoff)
    (v : StreamView) : purge (some e) cutoff v =
      { records := fun s => if s < cutoff then none else v.records s
        entry := if e.maxSequenceNumber < cutoff then none
          else some { e with minSequenceNumber := cutoff } } := if_neg (not_le.2 h)

/-- A truncation that saw the stream as it is. -/
def truncate (cutoff : UInt64) (v : StreamView) : StreamView := purge v.entry cutoff v

/-- **The registry invariant of one stream.** -/
structure Valid (v : StreamView) : Prop where
  /-- A stored packet has a registry entry, with its number in range. -/
  bounds (s : UInt64) (r : Record) (h : v.records s = some r) :
    ∃ e, v.entry = some e ∧ e.minSequenceNumber ≤ s ∧ s ≤ e.maxSequenceNumber
  /-- The largest number of an entry is stored. -/
  max_stored (e : Aggregate) (h : v.entry = some e) : ∃ r, v.records e.maxSequenceNumber = some r

/-- An empty stream is valid. -/
theorem valid_empty : Valid empty := ⟨fun _ _ h => (by cases h), fun _ h => (by cases h)⟩

/-- The entry of a valid stream does not end before it starts. -/
theorem Valid.min_le_max {v : StreamView} (hv : Valid v) {e : Aggregate} (h : v.entry = some e) :
    e.minSequenceNumber ≤ e.maxSequenceNumber := by
  obtain ⟨r, hr⟩ := hv.max_stored e h
  obtain ⟨e', he', hmin, -⟩ := hv.bounds _ r hr
  rw [h] at he'
  exact Option.some.inj he' ▸ hmin

/-- No entry, no packet. -/
theorem Valid.records_of_entry_none {v : StreamView} (hv : Valid v) (h : v.entry = none)
    (s : UInt64) : v.records s = none := by
  cases hr : v.records s with
  | none => rfl
  | some r =>
      obtain ⟨e, he, -⟩ := hv.bounds s r hr
      rw [h] at he
      cases he

/-- An entry always has a packet behind it. -/
theorem Valid.entry_isSome_iff {v : StreamView} (hv : Valid v) :
    v.entry.isSome ↔ ∃ s r, v.records s = some r := by
  constructor
  · intro h
    obtain ⟨e, he⟩ := Option.isSome_iff_exists.1 h
    obtain ⟨r, hr⟩ := hv.max_stored e he
    exact ⟨_, r, hr⟩
  · rintro ⟨s, r, hr⟩
    obtain ⟨e, he, -⟩ := hv.bounds s r hr
    rw [he]
    rfl

/-- **Writing a packet keeps the invariant,** wherever its number falls. -/
theorem Valid.append {v : StreamView} (hv : Valid v) (item : UInt64 × Record) :
    Valid (v.append item) := by
  obtain ⟨s, r⟩ := item
  have hwiden : (v.append (s, r)).entry
      = some (v.entry.elim (.single s r.receivedAt) (·.merge (.single s r.receivedAt))) := rfl
  constructor
  · intro s' r' h
    refine ⟨_, hwiden, ?_⟩
    by_cases hs : s' = s
    · subst hs
      cases v.entry with
      | none => exact ⟨le_rfl, le_rfl⟩
      | some e => exact ⟨min_le_right _ _, le_max_right _ _⟩
    · rw [records_append, Function.update_of_ne hs] at h
      obtain ⟨e, he, hmin, hmax⟩ := hv.bounds s' r' h
      rw [he]
      exact ⟨(min_le_left _ _).trans hmin, hmax.trans (le_max_left _ _)⟩
  · intro e h
    rw [hwiden, Option.some.injEq] at h
    subst h
    cases hentry : v.entry with
    | none => exact ⟨r, Function.update_self ..⟩
    | some e =>
        -- the larger of the old maximum and the new number
        rcases le_total e.maxSequenceNumber s with hle | hle
        · have hmax : ((some e).elim (.single s r.receivedAt)
              (·.merge (.single s r.receivedAt)) : Aggregate).maxSequenceNumber = s := max_eq_right hle
          rw [hmax]
          exact ⟨r, Function.update_self ..⟩
        · have hmax : ((some e).elim (.single s r.receivedAt)
              (·.merge (.single s r.receivedAt)) : Aggregate).maxSequenceNumber
                = e.maxSequenceNumber := max_eq_left hle
          rw [hmax, records_append, Function.update_apply]
          split_ifs with hs
          · exact ⟨r, rfl⟩
          · exact hv.max_stored e hentry

/-- A run of writes keeps the invariant. -/
theorem Valid.foldl_append {v : StreamView} (hv : Valid v) (items : List (UInt64 × Record)) :
    Valid (items.foldl StreamView.append v) := by
  induction items generalizing v with
  | nil => exact hv
  | cons item items ih => exact ih (hv.append item)

/-- **On a valid stream a truncation drops exactly the records below its cutoff:**
a stream it skips holds none of them. -/
theorem Valid.records_truncate {v : StreamView} (hv : Valid v) (cutoff s : UInt64) :
    (v.truncate cutoff).records s = if s < cutoff then none else v.records s := by
  cases hentry : v.entry with
  | none => simp [truncate, hentry, hv.records_of_entry_none hentry]
  | some e =>
      rw [truncate, hentry]
      rcases le_or_gt cutoff e.minSequenceNumber with hskip | hcut
      · rw [purge_of_le hskip]
        split_ifs with hs
        · cases hr : v.records s with
          | none => rfl
          | some r =>
              obtain ⟨e', he', hmin, -⟩ := hv.bounds s r hr
              obtain rfl := Option.some.inj (hentry.symm.trans he')
              exact absurd (hs.trans_le (hskip.trans hmin)) (lt_irrefl _)
        · rfl
      · rw [purge_of_lt hcut]

/-- The numbers of a stream whose records below `cutoff` were dropped. -/
theorem numbers_of_records_eq {v w : StreamView} {cutoff : UInt64}
    (h : ∀ s, w.records s = if s < cutoff then none else v.records s) :
    w.numbers = {s ∈ v.numbers | cutoff ≤ s} := by
  ext s
  change (∃ r, w.records s = some r) ↔ (∃ r, v.records s = some r) ∧ cutoff ≤ s
  rw [h]
  split_ifs with hs
  · refine iff_of_false ?_ fun h => absurd h.2 (not_le.2 hs)
    rintro ⟨r, hr⟩
    cases hr
  · exact (and_iff_left (not_lt.1 hs)).symm

/-- A truncation leaves the receipt time of the entries it leaves. -/
theorem entry_of_truncate {v : StreamView} {cutoff : UInt64} {e : Aggregate}
    (h : (v.truncate cutoff).entry = some e) :
    ∃ e', v.entry = some e' ∧ e'.lastReceivedNanoSeconds = e.lastReceivedNanoSeconds := by
  cases hentry : v.entry with
  | none =>
      rw [truncate, hentry, purge_none, hentry] at h
      cases h
  | some e' =>
      rw [truncate, hentry] at h
      refine ⟨e', rfl, ?_⟩
      rcases le_or_gt cutoff e'.minSequenceNumber with hskip | hcut
      · rw [purge_of_le hskip, hentry] at h
        rw [Option.some.inj h]
      · rw [purge_of_lt hcut] at h
        dsimp only at h
        split_ifs at h
        rw [← Option.some.inj h]

/-- **A truncation keeps the invariant.** -/
theorem Valid.truncate {v : StreamView} (hv : Valid v) (cutoff : UInt64) :
    Valid (v.truncate cutoff) := by
  cases hentry : v.entry with
  | none => rw [StreamView.truncate, hentry]; exact hv
  | some e =>
      rw [StreamView.truncate, hentry]
      rcases le_or_gt cutoff e.minSequenceNumber with hskip | hcut
      · rw [purge_of_le hskip]; exact hv
      · rw [purge_of_lt hcut]
        constructor
        · intro s r h
          dsimp only at h ⊢
          split_ifs at h with hs
          obtain ⟨e', he', -, hmax⟩ := hv.bounds s r h
          obtain rfl := Option.some.inj (hentry.symm.trans he')
          rw [if_neg (not_lt.2 ((not_lt.1 hs).trans hmax))]
          exact ⟨_, rfl, not_lt.1 hs, hmax⟩
        · intro e' h
          dsimp only at h ⊢
          split_ifs at h with hreap
          obtain rfl := Option.some.inj h
          obtain ⟨r, hr⟩ := hv.max_stored e hentry
          exact ⟨r, by rw [if_neg hreap, hr]⟩

/-- Writing packets from `lo` on leaves no entry that starts below it. -/
theorem le_min_foldl_append {lo : ℕ} {items : List (UInt64 × Record)} {v : StreamView}
    (hitems : ∀ i ∈ items, lo ≤ i.1.toNat)
    (hv : ∀ e, v.entry = some e → lo ≤ e.minSequenceNumber.toNat) {e : Aggregate}
    (he : (items.foldl append v).entry = some e) : lo ≤ e.minSequenceNumber.toNat := by
  induction items generalizing v with
  | nil => exact hv e he
  | cons i items ih =>
      refine ih (fun j hj => hitems j (List.mem_cons_of_mem i hj)) (fun e' he' => ?_) he
      have hi := hitems i List.mem_cons_self
      rw [entry_append, Aggregate.widen, Option.some.injEq] at he'
      subst he'
      cases hentry : v.entry with
      | none => exact hi
      | some e'' =>
          have hmin : ((some e'').elim (.single i.1 i.2.receivedAt)
              (·.merge (.single i.1 i.2.receivedAt)) : Aggregate).minSequenceNumber
                = min e''.minSequenceNumber i.1 := rfl
          rw [hmin]
          rcases min_choice e''.minSequenceNumber i.1 with h | h
          · rw [h]
            exact hv e'' hentry
          · rw [h]
            exact hi

/-- A record is one that was put, or was there before. -/
theorem mem_of_foldl_putRecord {items : List (UInt64 × Record)} {records : UInt64 → Option Record}
    {s : UInt64} {record : Record} (h : items.foldl putRecord records s = some record) :
    (s, record) ∈ items ∨ records s = some record := by
  induction items using List.reverseRecOn with
  | nil => exact Or.inr h
  | append_singleton items item ih =>
      rw [List.foldl_append, List.foldl_cons, List.foldl_nil, putRecord, Function.update_apply] at h
      split_ifs at h with hs
      · cases h
        exact Or.inl (List.mem_append_right _ (by rw [hs]; exact List.mem_singleton_self _))
      · exact (ih h).imp_left (List.mem_append_left _)

/-- A truncation puts nothing, whatever the registry says. -/
theorem records_of_records_truncate {v : StreamView} {cutoff s : UInt64} {record : Record}
    (h : (v.truncate cutoff).records s = some record) : v.records s = some record := by
  rw [truncate] at h
  cases hentry : v.entry with
  | none => rwa [hentry] at h
  | some e =>
      rw [hentry] at h
      rcases le_or_gt cutoff e.minSequenceNumber with hle | hlt
      · rwa [purge_of_le hle] at h
      · rw [purge_of_lt hlt] at h
        dsimp only at h
        split_ifs at h
        exact h

end StreamView

end RocksDatabase
end UDataPacketBroker
