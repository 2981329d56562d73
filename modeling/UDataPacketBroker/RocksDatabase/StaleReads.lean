/-
# One stream under stale reads

A write merges its packets with the entry it read, a truncation purges by the
entry it saw.  Here the other call has changed the stream in between: a write
that read the entry before a truncation (`Valid.agrees_write_truncate_iff`), and
a truncation that saw the entry before a write (`Valid.agrees_purge_write_iff`).
Each lemma says exactly when the entry still agrees with the packets afterwards.
-/

import UDataPacketBroker.RocksDatabase.StreamView

namespace UDataPacketBroker
namespace RocksDatabase

namespace StreamView

/-- A stream with packets has an entry that carries the largest number. -/
def Agrees (v : StreamView) : Prop :=
  v.numbers.Nonempty → ∃ e, v.entry = some e ∧ IsGreatest v.numbers e.maxSequenceNumber

/-- The entry of a valid stream ends with its greatest number. -/
theorem Valid.isGreatest_numbers {v : StreamView} (hv : Valid v) {e : Aggregate}
    (h : v.entry = some e) : IsGreatest v.numbers e.maxSequenceNumber := by
  refine ⟨hv.max_stored e h, ?_⟩
  rintro s ⟨r, hr⟩
  obtain ⟨e', he', -, hmax⟩ := hv.bounds s r hr
  rwa [Option.some.inj (h.symm.trans he')]

/-- A valid stream agrees with its entry. -/
theorem Valid.agrees {v : StreamView} (hv : Valid v) : Agrees v := by
  rintro ⟨s, r, hr⟩
  obtain ⟨e, he, -⟩ := hv.bounds s r hr
  exact ⟨e, he, hv.isGreatest_numbers he⟩

/-- A stream with an entry and packets. -/
theorem agrees_iff_isGreatest {v : StreamView} {e : Aggregate} (he : v.entry = some e)
    (hne : v.numbers.Nonempty) : Agrees v ↔ IsGreatest v.numbers e.maxSequenceNumber := by
  constructor
  · intro h
    obtain ⟨e', he', hgreatest⟩ := h hne
    rwa [Option.some.inj (he.symm.trans he')]
  · exact fun h _ => ⟨e, he, h⟩

/-- A write that read the entry leaves the stream valid. -/
theorem Valid.valid_write {v : StreamView} (hv : Valid v) (items : List (UInt64 × Record)) :
    Valid (write v.entry items v) := by
  rw [write_entry]
  exact hv.foldl_append items

/-- The entry a write puts. -/
theorem entry_write (seen : Option Aggregate) (items : List (UInt64 × Record)) (v : StreamView) :
    (items = [] ∧ write seen items v = v) ∨
      ∃ a, IsGreatest (itemNumbers items) a.maxSequenceNumber ∧
        (write seen items v).entry = some (seen.elim a a.merge) := by
  cases hsummary : items.foldl Aggregate.widen none with
  | none =>
      obtain rfl := Aggregate.foldl_widen_eq_none_iff.1 hsummary
      exact Or.inl ⟨rfl, rfl⟩
  | some a =>
      have hmax := Aggregate.isGreatest_foldl_widen Aggregate.maxSequenceNumber (fun _ _ => rfl)
        hsummary
      refine Or.inr ⟨a, ?_, by rw [write, hsummary]; rfl⟩
      simpa [itemNumbers, Aggregate.single] using hmax

/-- A write of packets has a largest number. -/
theorem exists_isGreatest_itemNumbers {items : List (UInt64 × Record)} {s : UInt64}
    (h : s ∈ itemNumbers items) : ∃ b, IsGreatest (itemNumbers items) b := by
  rcases entry_write none items empty with ⟨rfl, -⟩ | ⟨a, ha, -⟩
  · obtain ⟨i, hi, -⟩ := h
    exact absurd hi List.not_mem_nil
  · exact ⟨a.maxSequenceNumber, ha⟩

/-- **A write after a truncation, with an entry read before it.**  It goes wrong when
the truncation reaped the entry and the packets written are older than it. -/
theorem Valid.agrees_write_truncate_iff {v : StreamView} (hv : Valid v)
    (items : List (UInt64 × Record)) (cutoff : UInt64) :
    (write v.entry items (v.truncate cutoff)).Agrees ↔
      ∀ e b, v.entry = some e → IsGreatest (itemNumbers items) b →
        e.maxSequenceNumber < cutoff → e.maxSequenceNumber ≤ b := by
  rcases entry_write v.entry items (v.truncate cutoff) with ⟨rfl, hsame⟩ | ⟨a, ha, hentry⟩
  · rw [hsame]
    refine iff_of_true (hv.truncate cutoff).agrees fun e b _ hb => ?_
    obtain ⟨i, hi, -⟩ := hb.1
    exact absurd hi List.not_mem_nil
  · cases hseen : v.entry with
    | none =>
        have hsame : v.truncate cutoff = v := by rw [StreamView.truncate, hseen, purge_none]
        rw [hsame, ← hseen]
        exact iff_of_true (hv.valid_write items).agrees fun e b he => by rw [hseen] at he; cases he
    | some e =>
        rw [hseen] at hentry
        have hmax := hv.isGreatest_numbers hseen
        have hnumbers : (write (some e) items (v.truncate cutoff)).numbers
            = {s ∈ v.numbers | cutoff ≤ s} ∪ itemNumbers items := by
          rw [numbers_write, numbers_of_records_eq (hv.records_truncate cutoff)]
        have hagrees : (write (some e) items (v.truncate cutoff)).Agrees ↔
            IsGreatest ({s ∈ v.numbers | cutoff ≤ s} ∪ itemNumbers items)
              (max a.maxSequenceNumber e.maxSequenceNumber) := by
          rw [← hnumbers]
          exact agrees_iff_isGreatest hentry (hnumbers ▸ ⟨_, Or.inr ha.1⟩)
        rw [hagrees]
        constructor
        · rintro h e' b he' hb hreaped
          obtain rfl := Option.some.inj he'
          obtain rfl := hb.unique ha
          -- nothing old remains, so the largest number is one that was written
          rcases h.1 with ⟨hold, hle⟩ | hnew
          · exact absurd ((hmax.2 hold).trans_lt hreaped) (not_lt.2 hle)
          · exact (le_max_right _ _).trans (ha.2 hnew)
        · intro h
          refine ⟨?_, ?_⟩
          · rcases le_total e.maxSequenceNumber a.maxSequenceNumber with hle | hle
            · rw [max_eq_left hle]
              exact Or.inr ha.1
            · rw [max_eq_right hle]
              rcases lt_or_ge e.maxSequenceNumber cutoff with hreaped | hkept
              · rw [le_antisymm (h e _ rfl ha hreaped) hle]
                exact Or.inr ha.1
              · exact Or.inl ⟨hmax.1, hkept⟩
          · rintro s (⟨hold, -⟩ | hnew)
            · exact (hmax.2 hold).trans (le_max_right _ _)
            · exact (ha.2 hnew).trans (le_max_left _ _)

/-- What a truncation leaves of a write it did not see. -/
theorem numbers_purge_write {e : Aggregate} {cutoff : UInt64} (hcut : e.minSequenceNumber < cutoff)
    (items : List (UInt64 × Record)) (v : StreamView) :
    (purge (some e) cutoff (write (some e) items v)).numbers
      = {s ∈ v.numbers ∪ itemNumbers items | cutoff ≤ s} := by
  rw [purge_of_lt hcut, ← numbers_write (some e)]
  exact numbers_of_records_eq fun s => rfl

/-- It reaped the entry: no packet written may be left. -/
theorem Valid.agrees_purge_write_of_lt {v : StreamView} (hv : Valid v) {e : Aggregate}
    (he : v.entry = some e) (items : List (UInt64 × Record)) {cutoff : UInt64}
    (hcut : e.minSequenceNumber < cutoff) (hreaped : e.maxSequenceNumber < cutoff) :
    (purge (some e) cutoff (write (some e) items v)).Agrees ↔
      ∀ s ∈ itemNumbers items, s < cutoff := by
  unfold Agrees
  rw [numbers_purge_write hcut, purge_of_lt hcut, if_pos hreaped]
  constructor
  · intro h s hs
    by_contra hle
    obtain ⟨e', he', -⟩ := h ⟨s, Or.inr hs, not_lt.1 hle⟩
    cases he'
  · rintro h ⟨s, hold | hnew, hle⟩
    · exact absurd (((hv.isGreatest_numbers he).2 hold).trans_lt hreaped) (not_lt.2 hle)
    · exact absurd (h s hnew) (not_lt.2 hle)

/-- It put the entry back: no packet written may be newer. -/
theorem Valid.agrees_purge_write_of_le {v : StreamView} (hv : Valid v) {e : Aggregate}
    (he : v.entry = some e) (items : List (UInt64 × Record)) {cutoff : UInt64}
    (hcut : e.minSequenceNumber < cutoff) (hkept : cutoff ≤ e.maxSequenceNumber) :
    (purge (some e) cutoff (write (some e) items v)).Agrees ↔
      ∀ s ∈ itemNumbers items, s ≤ e.maxSequenceNumber := by
  have hmax := hv.isGreatest_numbers he
  have hnumbers := numbers_purge_write hcut items v
  have hentry : (purge (some e) cutoff (write (some e) items v)).entry
      = some { e with minSequenceNumber := cutoff } := by
    rw [purge_of_lt hcut]
    exact if_neg (not_lt.2 hkept)
  rw [agrees_iff_isGreatest hentry (hnumbers ▸ ⟨_, Or.inl hmax.1, hkept⟩), hnumbers]
  constructor
  · intro h s hs
    rcases lt_or_ge s cutoff with hlt | hle
    · exact hlt.le.trans hkept
    · exact h.2 ⟨Or.inr hs, hle⟩
  · intro h
    refine ⟨⟨Or.inl hmax.1, hkept⟩, ?_⟩
    rintro s ⟨hold | hnew, -⟩
    · exact hmax.2 hold
    · exact h s hnew

/-- **A truncation after a write, with an entry read before it.**  It goes wrong when
the packets written reach past the entry it reaps or puts back. -/
theorem Valid.agrees_purge_write_iff {v : StreamView} (hv : Valid v)
    (items : List (UInt64 × Record)) (cutoff : UInt64) :
    (purge v.entry cutoff (write v.entry items v)).Agrees ↔
      ∀ e b, v.entry = some e → IsGreatest (itemNumbers items) b → e.minSequenceNumber < cutoff →
        (e.maxSequenceNumber < cutoff → b < cutoff) ∧
        (cutoff ≤ e.maxSequenceNumber → b ≤ e.maxSequenceNumber) := by
  cases hseen : v.entry with
  | none =>
      rw [purge_none, ← hseen]
      exact iff_of_true (hv.valid_write items).agrees fun e b he => by rw [hseen] at he; cases he
  | some e =>
      have hwrite := hv.valid_write items
      rw [hseen] at hwrite
      rcases le_or_gt cutoff e.minSequenceNumber with hskip | hcut
      · rw [purge_of_le hskip]
        refine iff_of_true hwrite.agrees fun e' b he' _ hlt => ?_
        obtain rfl := Option.some.inj he'
        exact absurd hlt (not_lt.2 hskip)
      · rcases lt_or_ge e.maxSequenceNumber cutoff with hreaped | hkept
        · rw [hv.agrees_purge_write_of_lt hseen items hcut hreaped]
          constructor
          · rintro h e' b he' hb -
            obtain rfl := Option.some.inj he'
            exact ⟨fun _ => h b hb.1, fun hle => absurd hreaped (not_lt.2 hle)⟩
          · intro h s hs
            obtain ⟨b, hb⟩ := exists_isGreatest_itemNumbers hs
            exact (hb.2 hs).trans_lt ((h e b rfl hb hcut).1 hreaped)
        · rw [hv.agrees_purge_write_of_le hseen items hcut hkept]
          constructor
          · rintro h e' b he' hb -
            obtain rfl := Option.some.inj he'
            exact ⟨fun hlt => absurd hlt (not_lt.2 hkept), fun _ => h b hb.1⟩
          · intro h s hs
            obtain ⟨b, hb⟩ := exists_isGreatest_itemNumbers hs
            exact (hb.2 hs).trans ((h e b rfl hb hcut).2 hkept)

end StreamView

end RocksDatabase
end UDataPacketBroker
