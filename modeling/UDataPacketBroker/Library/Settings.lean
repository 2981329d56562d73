/-
# Objects that are set up call by call

An object of type `σ` is changed by calls of type `κ`.  A call either is rejected, which
leaves the object as it was, or sets some of what can be read off the object, and whether
it is rejected depends on its arguments alone.  What can be read off after any calls is
then the argument of the last accepted call that sets it, and what the object was
constructed with if there is none (`read_after`).
-/

import Mathlib.Data.List.Induction

namespace UDataPacketBroker
namespace Library

/-- **Calls that set up an object,** each accepted or rejected for its arguments. -/
structure Setters (σ κ ε : Type*) where
  call : σ → κ → Except ε σ
  accepts : κ → Bool
  isOk_call (s : σ) (c : κ) : (call s c).isOk = accepts c

namespace Setters

variable {σ κ ε α : Type*}

/-- The object after the calls.  The caller goes on after a call that is rejected. -/
def after (setters : Setters σ κ ε) (s : σ) (calls : List κ) : σ :=
  calls.foldl (fun s c => (setters.call s c).toOption.getD s) s

/-- After one more call, which changes nothing if it is rejected. -/
theorem after_concat (setters : Setters σ κ ε) (s : σ) (calls : List κ) (c : κ) :
    setters.after s (calls ++ [c]) =
      (setters.call (setters.after s calls) c).toOption.getD (setters.after s calls) := by
  rw [after, List.foldl_append]
  rfl

/-- What is read of the object is set by the accepted calls that `argument` gives a value
for, to that value, and by no other. -/
def Reads (setters : Setters σ κ ε) (read : σ → α) (argument : κ → Option α) : Prop :=
  ∀ s c s', setters.call s c = .ok s' → read s' = (argument c).getD (read s)

/-- The values that the accepted calls set. -/
def assigned (setters : Setters σ κ ε) (argument : κ → Option α) (calls : List κ) : List α :=
  (calls.filter setters.accepts).filterMap argument

/-- A call assigns its argument if it is accepted. -/
theorem assigned_concat (setters : Setters σ κ ε) (argument : κ → Option α) (calls : List κ)
    (c : κ) : setters.assigned argument (calls ++ [c]) =
      setters.assigned argument calls ++ if setters.accepts c then (argument c).toList else [] := by
  rw [assigned, List.filter_append, List.filterMap_append]
  congr 1
  by_cases haccepts : setters.accepts c = true
  · rw [if_pos haccepts, List.filter_cons_of_pos haccepts, List.filter_nil, List.filterMap_cons]
    cases argument c <;> rfl
  · rw [if_neg haccepts, List.filter_cons_of_neg haccepts]
    rfl

/-- A value is set by an accepted call. -/
theorem mem_assigned {setters : Setters σ κ ε} {argument : κ → Option α} {calls : List κ} {a : α} :
    a ∈ setters.assigned argument calls ↔
      ∃ c ∈ calls, setters.accepts c = true ∧ argument c = some a := by
  rw [assigned, List.mem_filterMap]
  constructor
  · rintro ⟨c, hc, ha⟩
    exact ⟨c, (List.mem_filter.1 hc).1, (List.mem_filter.1 hc).2, ha⟩
  · rintro ⟨c, hc, haccepts, ha⟩
    exact ⟨c, List.mem_filter.2 ⟨hc, haccepts⟩, ha⟩

/-- The last value set is that of an accepted call after which none sets another. -/
theorem getLast?_assigned {setters : Setters σ κ ε} {argument : κ → Option α} {calls : List κ}
    {a : α} : (setters.assigned argument calls).getLast? = some a ↔
      ∃ before c later, calls = before ++ c :: later ∧ setters.accepts c = true ∧
        argument c = some a ∧ ∀ c' ∈ later, setters.accepts c' = true → argument c' = none := by
  rw [List.getLast?_eq_some_iff]
  constructor
  · rintro ⟨others, h⟩
    induction calls using List.reverseRecOn with
    | nil => exact absurd h.symm (List.append_ne_nil_of_right_ne_nil _ (List.cons_ne_nil _ _))
    | append_singleton calls c ih =>
        rw [assigned_concat] at h
        by_cases hsets : setters.accepts c = true ∧ ∃ b, argument c = some b
        · obtain ⟨haccepts, b, hb⟩ := hsets
          rw [if_pos haccepts, hb] at h
          cases (List.append_inj' h rfl).2
          exact ⟨calls, c, [], rfl, haccepts, hb, fun _ hmem => absurd hmem List.not_mem_nil⟩
        · have hnone : setters.accepts c = true → argument c = none := fun haccepts =>
            Option.eq_none_iff_forall_not_mem.2 fun b hb => hsets ⟨haccepts, b, hb⟩
          have hnothing : (if setters.accepts c then (argument c).toList else []) = [] := by
            split_ifs with haccepts
            · rw [hnone haccepts]
              rfl
            · rfl
          rw [hnothing, List.append_nil] at h
          obtain ⟨before, c', later, rfl, haccepts, ha, hlast⟩ := ih h
          refine ⟨before, c', later ++ [c], by simp, haccepts, ha, fun d hd => ?_⟩
          rcases List.mem_append.1 hd with hd | hd
          · exact hlast d hd
          · rw [List.mem_singleton.1 hd]
            exact hnone
  · rintro ⟨before, c, later, rfl, haccepts, ha, hlast⟩
    refine ⟨setters.assigned argument before, ?_⟩
    have hlater : setters.assigned argument later = [] :=
      List.filterMap_eq_nil_iff.2 fun c' hc' =>
        hlast c' (List.mem_filter.1 hc').1 (List.mem_filter.1 hc').2
    rw [← List.singleton_append, ← List.append_assoc, assigned, List.filter_append,
      List.filterMap_append, ← assigned, ← assigned, hlater, List.append_nil, assigned_concat,
      if_pos haccepts, ha]
    rfl

/-- **The last accepted call counts,** and without one what was there before. -/
theorem read_after {setters : Setters σ κ ε} {read : σ → α} {argument : κ → Option α}
    (h : setters.Reads read argument) (s : σ) (calls : List κ) :
    read (setters.after s calls) =
      (setters.assigned argument calls).getLast?.getD (read s) := by
  induction calls using List.reverseRecOn with
  | nil => rfl
  | append_singleton calls c ih =>
      rw [after_concat, assigned_concat]
      have hok := setters.isOk_call (setters.after s calls) c
      cases hcall : setters.call (setters.after s calls) c with
      | error e =>
          rw [hcall] at hok
          rw [← hok, Except.isOk, Except.toBool, if_neg Bool.false_ne_true, List.append_nil, ← ih]
          rfl
      | ok s' =>
          rw [hcall] at hok
          rw [← hok, Except.isOk, Except.toBool, if_pos rfl, Except.toOption, Option.getD_some,
            h _ c s' hcall, ih]
          cases argument c with
          | none => rw [Option.getD_none, Option.toList_none, List.append_nil]
          | some a => rw [Option.getD_some, Option.toList_some, List.getLast?_concat,
              Option.getD_some]

section

variable {setters : Setters σ κ ε} {read : σ → Option α} {argument : κ → Option α} {s : σ}
  {calls : List κ}

/-- **An optional value is the last one that was set,** when it is not there at first and
calls set it but never clear it. -/
theorem read_after_eq_some_iff (h : setters.Reads read fun c => (argument c).map some)
    (hs : read s = none) {a : α} :
    read (setters.after s calls) = some a ↔
      ∃ before c later, calls = before ++ c :: later ∧ setters.accepts c = true ∧
        argument c = some a ∧ ∀ c' ∈ later, setters.accepts c' = true → argument c' = none := by
  have hget (last : Option (Option α)) : last.getD none = some a ↔ last = some (some a) := by
    cases last with
    | none => exact iff_of_false (by rintro ⟨⟩) (by rintro ⟨⟩)
    | some last => rw [Option.getD_some, Option.some_inj]
  rw [read_after h, hs, hget, getLast?_assigned]
  simp only [Option.map_eq_some_iff, Option.some_inj, exists_eq_right, Option.map_eq_none_iff]

/-- It is there once it was set. -/
theorem isSome_read_after_iff (h : setters.Reads read fun c => (argument c).map some)
    (hs : read s = none) :
    (read (setters.after s calls)).isSome = true ↔
      ∃ c ∈ calls, setters.accepts c = true ∧ (argument c).isSome = true := by
  constructor
  · intro hsome
    obtain ⟨a, ha⟩ := Option.isSome_iff_exists.1 hsome
    obtain ⟨before, c, later, rfl, haccepts, hc, -⟩ := (read_after_eq_some_iff h hs).1 ha
    exact ⟨c, List.mem_append_right _ List.mem_cons_self, haccepts, hc ▸ rfl⟩
  · rintro ⟨c, hmem, haccepts, hc⟩
    obtain ⟨a, ha⟩ := Option.isSome_iff_exists.1 hc
    have hassigned : some a ∈ setters.assigned (fun c => (argument c).map some) calls :=
      mem_assigned.2 ⟨c, hmem, haccepts, by rw [ha]; rfl⟩
    have hlast := List.getLast?_eq_some_getLast (List.ne_nil_of_mem hassigned)
    obtain ⟨c', -, -, hc'⟩ := mem_assigned.1 (List.getLast_mem (List.ne_nil_of_mem hassigned))
    obtain ⟨a', -, ha'⟩ := Option.map_eq_some_iff.1 hc'
    rw [read_after h, hlast, Option.getD_some, ← ha']
    rfl

end

/-- What no call sets stays as it was. -/
theorem read_after_of_unset {setters : Setters σ κ ε} {read : σ → α}
    (h : setters.Reads read fun _ => none) (s : σ) (calls : List κ) :
    read (setters.after s calls) = read s := by
  have hnone : setters.assigned (fun _ => (none : Option α)) calls = [] := by
    rw [assigned, List.filterMap_eq_nil_iff]
    exact fun _ _ => rfl
  rw [read_after h, hnone]
  rfl

end Setters

end Library
end UDataPacketBroker
