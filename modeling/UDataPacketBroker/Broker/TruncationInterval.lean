/-
# The truncation interval

How long the truncator sleeps between two passes: half as long after a pass that
truncated, down to 10 ms, and twice as long after one that did not, up to the base
interval.  Whether a pass truncated is the sign of its total, an `int` to which each
result of `truncateOldest`, a `size_t`, is added.  The total is the number of packets
modulo 2^32 (`toInt_nTotalTruncated`), so a pass that purges 2^31 packets looks idle,
and the interval grows under the heaviest load.

What the store returns is arbitrary here; the passes over a RocksDB store are of this
kind (`TruncatorRun.exists_passes`).
-/

import Mathlib.Algebra.Order.Ring.Int
import UDataPacketBroker.Broker.Truncator

namespace UDataPacketBroker
namespace Broker

open Library Utilities RocksDatabase

/-! ### The total of a pass -/

/-- What the calls of `truncateOldest` return in one pass, up to the 0 that may end it. -/
structure Pass where
  results : List UInt64
  nonzero : ∀ nTruncated ∈ results, nTruncated ≠ 0

namespace Pass

/-- A pass that found nothing to truncate. -/
def idle : Pass := ⟨[], fun _ h => absurd h List.not_mem_nil⟩

def nTotalTruncated (pass : Pass) : Int32 := pass.results.foldl addTruncated 0

/-- The packets that were truncated. -/
def truncated (pass : Pass) : ℕ := (pass.results.map UInt64.toNat).sum

/-- The total is positive as an `int`. -/
def Counted (pass : Pass) : Prop := 0 < pass.truncated % 2 ^ 32 ∧ pass.truncated % 2 ^ 32 < 2 ^ 31

end Pass

/-- One addition, modulo 2^32. -/
theorem toInt_addTruncated (nTotalTruncated : Int32) (nTruncated : UInt64) :
    (addTruncated nTotalTruncated nTruncated).toInt =
      (nTotalTruncated.toInt + nTruncated.toNat).bmod (2 ^ 32) := by
  have hsum : (nTotalTruncated.toInt64.toUInt64 + nTruncated).toInt64.toInt
      = (nTotalTruncated.toInt + nTruncated.toNat).bmod (2 ^ 64) := by
    have hint : nTotalTruncated.toInt64.toBitVec.toInt = nTotalTruncated.toInt :=
      Int32.toInt_toInt64 nTotalTruncated
    refine (BitVec.toInt_add nTotalTruncated.toInt64.toBitVec nTruncated.toBitVec).trans ?_
    rw [hint, BitVec.toInt_eq_toNat_bmod, Int.add_bmod_bmod]
    rfl
  rw [addTruncated, Int64.toInt_toInt32, hsum, Int.bmod_bmod_of_dvd (by decide)]

/-- The total of a pass is its sum modulo 2^32, read with a sign. -/
theorem toInt_foldl_addTruncated (results : List UInt64) (nTotalTruncated : Int32) :
    (results.foldl addTruncated nTotalTruncated).toInt =
      (nTotalTruncated.toInt + (results.map UInt64.toNat).sum).bmod (2 ^ 32) := by
  induction results generalizing nTotalTruncated with
  | nil => simp
  | cons nTruncated results ih =>
      rw [List.foldl_cons, ih, toInt_addTruncated, Int.bmod_add_bmod, List.map_cons, List.sum_cons,
        Nat.cast_add, Int.add_assoc]

/-- **The total of a pass** is the number of packets it truncated, modulo 2^32. -/
theorem Pass.toInt_nTotalTruncated (pass : Pass) :
    pass.nTotalTruncated.toInt = (pass.truncated : ℤ).bmod (2 ^ 32) := by
  rw [nTotalTruncated, toInt_foldl_addTruncated, Int32.toInt_zero, Int.zero_add, truncated]

/-- The test at the end of a pass is whether its total is positive. -/
theorem Pass.nTotalTruncated_pos_iff (pass : Pass) : pass.nTotalTruncated > 0 ↔ pass.Counted := by
  rw [gt_iff_lt, Int32.lt_iff_toInt_lt, pass.toInt_nTotalTruncated, Int32.toInt_zero, Int.bmod_def,
    Counted]
  split_ifs <;> omega

/-! ### The passes of the truncator -/

section
variable {CF : Type} [OrderedStore CF Bytes Bytes]

/-- **The inner loop is a pass:** it adds up results that are not 0. -/
theorem exists_pass {desiredSizeInBytes chunkSize : UInt64} {sizes : ℕ → UInt64}
    {writeFails : ℕ → Bool} {fuel : ℕ} {locals final : TruncatorLocals CF}
    (h : truncationLoop desiredSizeInBytes chunkSize sizes writeFails fuel locals = some final) :
    ∃ pass : Pass,
      final.nTotalTruncated = pass.results.foldl addTruncated locals.nTotalTruncated := by
  induction fuel generalizing locals with
  | zero => cases h
  | succ fuel ih =>
      rw [truncationLoop] at h
      dsimp only at h
      split_ifs at h with hsize hzero
      · cases h
        exact ⟨.idle, rfl⟩
      · obtain ⟨pass, hpass⟩ := ih h
        refine ⟨⟨_ :: pass.results, fun nTruncated hmem => ?_⟩, hpass⟩
        rcases List.mem_cons.1 hmem with rfl | hmem
        · exact hzero
        · exact pass.nonzero nTruncated hmem
      · cases h
        exact ⟨.idle, rfl⟩

/-- What `truncateDataStore` makes of the interval is what some pass makes of it. -/
theorem exists_pass_of_truncateDataStore {desiredSizeInBytes chunkSize : UInt64}
    {sizes : ℕ → UInt64} {writeFails : ℕ → Bool} {fuel : ℕ}
    {initialInterval currentInterval : Int64} {db : Database CF} {result : Database CF × Int64}
    (h : truncateDataStore (some desiredSizeInBytes) chunkSize sizes writeFails fuel
      initialInterval currentInterval db = some result) :
    ∃ pass : Pass,
      result.2 = nextInterval initialInterval currentInterval pass.nTotalTruncated := by
  obtain ⟨final, hfinal, rfl⟩ := Option.map_eq_some_iff.1 h
  obtain ⟨pass, hpass⟩ := exists_pass hfinal
  exact ⟨pass, by rw [hpass]; rfl⟩

end

/-! ### The interval -/

/-- `initialInterval`: the base interval, in seconds, as milliseconds. -/
def initialInterval (truncationBaseInterval : Int64) : Int64 := truncationBaseInterval * 1000

/-- `currentInterval` after the passes. -/
def intervalAfter (truncationBaseInterval : Int64) (passes : List Pass) : Int64 :=
  passes.foldl (fun currentInterval pass =>
      nextInterval (initialInterval truncationBaseInterval) currentInterval pass.nTotalTruncated)
    (initialInterval truncationBaseInterval)

/-- The interval after one more pass. -/
theorem intervalAfter_concat (base : Int64) (passes : List Pass) (pass : Pass) :
    intervalAfter base (passes ++ [pass]) =
      nextInterval (initialInterval base) (intervalAfter base passes) pass.nTotalTruncated := by
  rw [intervalAfter, List.foldl_append]
  rfl

/-- The truncator thread on a RocksDB store: pass after pass, each on what the store
holds by then. -/
inductive TruncatorRun (CF : Type) [OrderedStore CF Bytes Bytes] (desiredSizeInBytes : UInt64)
    (chunkSize : UInt64) (base : Int64) : Int64 → Prop
  | start : TruncatorRun CF desiredSizeInBytes chunkSize base (initialInterval base)
  | pass {currentInterval : Int64}
      (run : TruncatorRun CF desiredSizeInBytes chunkSize base currentInterval)
      {sizes : ℕ → UInt64} {writeFails : ℕ → Bool} {fuel : ℕ} {db : Database CF}
      {result : Database CF × Int64}
      (returns : truncateDataStore (some desiredSizeInBytes) chunkSize sizes writeFails fuel
        (initialInterval base) currentInterval db = some result) :
      TruncatorRun CF desiredSizeInBytes chunkSize base result.2

/-- **The intervals of the thread** are those after some passes. -/
theorem TruncatorRun.exists_passes {CF : Type} [OrderedStore CF Bytes Bytes]
    {desiredSizeInBytes chunkSize : UInt64} {base interval : Int64}
    (h : TruncatorRun CF desiredSizeInBytes chunkSize base interval) :
    ∃ passes, interval = intervalAfter base passes := by
  induction h with
  | start => exact ⟨[], rfl⟩
  | pass _ returns ih =>
      obtain ⟨passes, rfl⟩ := ih
      obtain ⟨pass, hpass⟩ := exists_pass_of_truncateDataStore returns
      exact ⟨passes ++ [pass], by rw [intervalAfter_concat, hpass]⟩

/-- A pass that is counted halves the interval, down to 10 ms. -/
theorem toInt_nextInterval_of_counted (initialInterval : Int64) {currentInterval : Int64}
    (h : 0 ≤ currentInterval.toInt) {pass : Pass} (hcounted : pass.Counted) :
    (nextInterval initialInterval currentInterval pass.nTotalTruncated).toInt =
      max 10 (currentInterval.toInt / 2) := by
  rw [nextInterval, if_pos (pass.nTotalTruncated_pos_iff.2 hcounted), toInt_max_int64,
    toInt_half_int64 h]
  rfl

/-- A pass that is not doubles it, up to the first interval. -/
theorem toInt_nextInterval_of_not_counted (initialInterval : Int64) {currentInterval : Int64}
    (hpos : 0 ≤ currentInterval.toInt) (hfits : currentInterval.toInt * 2 < 2 ^ 63) {pass : Pass}
    (hcounted : ¬pass.Counted) :
    (nextInterval initialInterval currentInterval pass.nTotalTruncated).toInt =
      min initialInterval.toInt (currentInterval.toInt * 2) := by
  have htwo : (2 : Int64).toInt = 2 := rfl
  rw [nextInterval, if_neg (mt pass.nTotalTruncated_pos_iff.1 hcounted),
    toInt_min_int64, toInt_mul_int64 (by rw [htwo]; omega) (by rw [htwo]; omega),
    htwo]

/-- A pass without a truncation is not counted. -/
theorem not_counted_idle {pass : Pass} (h : pass.results = []) : ¬pass.Counted := by
  rintro ⟨hpos, -⟩
  rw [Pass.truncated, h] at hpos
  exact absurd hpos (by decide)

section
variable {base : Int64} {passes : List Pass}

/-- The first interval is the base interval in milliseconds. -/
theorem toInt_initialInterval (hpos : 0 ≤ base.toInt) (hfits : 1000 * base.toInt < 2 ^ 63) :
    (initialInterval base).toInt = 1000 * base.toInt := by
  have hthousand : (1000 : Int64).toInt = 1000 := rfl
  rw [initialInterval, toInt_mul_int64 (by rw [hthousand]; omega) (by rw [hthousand]; omega),
    hthousand, Int.mul_comm]

/-- **The interval stays within its bounds.** -/
theorem bounds_intervalAfter (hbase : 1 ≤ base.toInt) (hfits : 2000 * base.toInt < 2 ^ 63)
    (passes : List Pass) :
    10 ≤ (intervalAfter base passes).toInt ∧
      (intervalAfter base passes).toInt ≤ 1000 * base.toInt := by
  have hinitial := @toInt_initialInterval base (by omega) (by omega)
  induction passes using List.reverseRecOn with
  | nil =>
      rw [intervalAfter, List.foldl_nil]
      omega
  | append_singleton passes pass ih =>
      rw [intervalAfter_concat]
      by_cases hcounted : pass.Counted
      · rw [toInt_nextInterval_of_counted _ (by omega) hcounted]
        omega
      · rw [toInt_nextInterval_of_not_counted _ (by omega) (by omega) hcounted]
        omega

/-- Idle passes double the interval up to the base interval. -/
theorem intervalAfter_idle (hbase : 1 ≤ base.toInt) (hfits : 2000 * base.toInt < 2 ^ 63)
    (passes : List Pass) (m : ℕ) :
    (intervalAfter base (passes ++ List.replicate m .idle)).toInt =
      min (1000 * base.toInt) ((intervalAfter base passes).toInt * 2 ^ m) := by
  have hinitial := @toInt_initialInterval base (by omega) (by omega)
  induction m with
  | zero =>
      have hbounds := bounds_intervalAfter hbase hfits passes
      rw [List.replicate_zero, List.append_nil, Int.pow_zero, Int.mul_one]
      omega
  | succ m ih =>
      have hbounds := bounds_intervalAfter hbase hfits (passes ++ List.replicate m .idle)
      rw [List.replicate_succ', ← List.append_assoc, intervalAfter_concat,
        toInt_nextInterval_of_not_counted _ (by omega) (by omega) (not_counted_idle rfl), hinitial,
        ih, Int.pow_succ, ← Int.mul_assoc]
      omega

/-! ### Sound adaptation -/

/-- **The interval adapts soundly to the passes.** -/
structure Adapts (base : Int64) (passes : List Pass) : Prop where
  bounds : ∀ front, front <+: passes → 10 ≤ (intervalAfter base front).toInt ∧
    (intervalAfter base front).toInt ≤ 1000 * base.toInt
  busy : ∀ front pass, front ++ [pass] <+: passes → pass.results ≠ [] →
    intervalAfter base (front ++ [pass]) ≤ intervalAfter base front
  idle : ∀ front pass, front ++ [pass] <+: passes → pass.results = [] →
    intervalAfter base front ≤ intervalAfter base (front ++ [pass])
  /-- Enough idle passes restore the base interval, and more of them leave it so, which is
  stronger than that some number of them restores it. -/
  restored : ∀ front, front <+: passes → ∃ n, ∀ m ≥ n,
    (intervalAfter base (front ++ List.replicate m .idle)).toInt = 1000 * base.toInt

/-- The interval does not grow after a pass that is counted, or where it is the
longest. -/
theorem busy_iff (hbase : 1 ≤ base.toInt) (hfits : 2000 * base.toInt < 2 ^ 63) (front : List Pass)
    (pass : Pass) : intervalAfter base (front ++ [pass]) ≤ intervalAfter base front ↔
      pass.Counted ∨ intervalAfter base front = initialInterval base := by
  have hinitial := @toInt_initialInterval base (by omega) (by omega)
  have hbounds := bounds_intervalAfter hbase hfits front
  rw [Int64.le_iff_toInt_le, ← Int64.toInt_inj, intervalAfter_concat, hinitial]
  by_cases hcounted : pass.Counted
  · rw [toInt_nextInterval_of_counted _ (by omega) hcounted]
    exact iff_of_true (by omega) (Or.inl hcounted)
  · rw [toInt_nextInterval_of_not_counted _ (by omega) (by omega) hcounted, or_iff_right hcounted,
      hinitial]
    omega

/-- **Enough idle passes restore the base interval,** as each doubles what there is. -/
theorem restored_intervalAfter (hbase : 1 ≤ base.toInt) (hfits : 2000 * base.toInt < 2 ^ 63)
    (passes : List Pass) : ∃ n, ∀ m ≥ n,
      (intervalAfter base (passes ++ List.replicate m .idle)).toInt = 1000 * base.toInt := by
  refine ⟨(1000 * base.toInt).toNat, fun m hm => ?_⟩
  have hbounds := bounds_intervalAfter hbase hfits passes
  have hpow : (m : ℤ) < 2 ^ m := by exact_mod_cast Nat.lt_two_pow_self
  have hmore : 2 ^ m ≤ (intervalAfter base passes).toInt * 2 ^ m :=
    le_mul_of_one_le_left (by omega) (by omega)
  have hgrown : 1000 * base.toInt ≤ (intervalAfter base passes).toInt * 2 ^ m := by omega
  rw [intervalAfter_idle hbase hfits]
  exact min_eq_left hgrown

/-- Where doubling the base interval overflows, idle passes do not keep it. -/
theorem fits_of_restored (hbase : 1 ≤ base.toInt)
    (h : ∃ n, ∀ m ≥ n, (intervalAfter base (List.replicate m .idle)).toInt = 1000 * base.toInt) :
    2000 * base.toInt < 2 ^ 63 := by
  obtain ⟨n, hn⟩ := h
  have hnow := hn n le_rfl
  have hnext := hn (n + 1) (Nat.le_succ n)
  have hlt := (intervalAfter base (List.replicate n .idle)).toInt_lt
  have hinitial := @toInt_initialInterval base (by omega) (by omega)
  by_contra hover
  have htwo : (2 : Int64).toInt = 2 := rfl
  have hdouble : (intervalAfter base (List.replicate n .idle) * 2).toInt
      = 2000 * base.toInt - 2 ^ 64 := by
    rw [Int64.toInt_mul, hnow, htwo, Int.bmod_def]
    split_ifs <;> omega
  rw [List.replicate_succ', intervalAfter_concat, nextInterval,
    if_neg (mt (Pass.nTotalTruncated_pos_iff _).1 (not_counted_idle rfl)),
    toInt_min_int64, hdouble, hinitial] at hnext
  omega

/-- **When the truncation interval adapts soundly.**  Exactly when twice the base
interval fits in 64 bits of milliseconds, and every pass that truncated is counted as
such, its total being positive modulo 2^32, or comes at the base interval. -/
theorem adapts_iff (hbase : 1 ≤ base) (passes : List Pass) :
    Adapts base passes ↔ 2000 * base.toInt < 2 ^ 63 ∧
      ∀ front pass, front ++ [pass] <+: passes → pass.results ≠ [] →
        pass.Counted ∨ intervalAfter base front = initialInterval base := by
  have hpos : 1 ≤ base.toInt := Int64.le_iff_toInt_le.1 hbase
  constructor
  · rintro ⟨-, hbusy, -, hrestored⟩
    have hfits := fits_of_restored hpos (hrestored [] (List.nil_prefix))
    refine ⟨hfits, fun front pass hfront hresults => ?_⟩
    exact (busy_iff hpos hfits front pass).1 (hbusy front pass hfront hresults)
  · rintro ⟨hfits, hcounted⟩
    refine ⟨fun front _ => bounds_intervalAfter hpos hfits front,
      fun front pass hfront hresults => ?_, fun front pass _ hresults => ?_,
      fun front _ => restored_intervalAfter hpos hfits front⟩
    · exact (busy_iff hpos hfits front pass).2 (hcounted front pass hfront hresults)
    · have hinitial := @toInt_initialInterval base (by omega) (by omega)
      have hbounds := bounds_intervalAfter hpos hfits front
      rw [Int64.le_iff_toInt_le, intervalAfter_concat,
        toInt_nextInterval_of_not_counted _ (by omega) (by omega) (not_counted_idle hresults),
        hinitial]
      omega

end

/-- A pass that truncates 128 packets, and an idle one. -/
theorem adapts_iff_chunk : Adapts 30 [⟨[128], by simp⟩, .idle] := by
  refine (adapts_iff (by decide +kernel) _).2
    ⟨by decide +kernel, fun front pass hfront hresults => Or.inl ?_⟩
  have hmem : pass ∈ [(⟨[128], by simp⟩ : Pass), .idle] :=
    hfront.subset (List.mem_append_right _ (List.mem_singleton_self _))
  rcases List.mem_pair.1 hmem with rfl | rfl
  · exact ⟨by decide +kernel, by decide +kernel⟩
  · exact absurd rfl hresults

/-- **2^31 packets purged in a pass double the interval,** from 15 s to 30 s. -/
theorem not_adapts_overflow :
    ¬ ∀ (base : Int64) (passes : List Pass), 1 ≤ base → Adapts base passes := by
  intro h
  have hbusy := (h 30 [⟨[128], by simp⟩, ⟨[2147483648], by simp⟩] (by decide)).busy
    [⟨[128], by simp⟩] ⟨[2147483648], by simp⟩ List.prefix_rfl (by decide)
  exact absurd hbusy (by decide +kernel)

end Broker
end UDataPacketBroker
