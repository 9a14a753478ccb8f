import Mathlib
import TaintTrace.Graph.Cycle
import TaintTrace.Proofs.LabelSet

/-!
# Blocked labels

Two views say all about the blocked labels of a search: which labels are blocked, and
which label waits for which.  Unblocking takes out the labels that are pending and,
from there on, all blocked labels that wait for one that is taken out.
-/

namespace TaintTrace
namespace LabelGraph
namespace Blocks

def IsBlocked (b : Blocks) (l : Label) : Prop :=
  l ∈ b.blocked

def Waits (b : Blocks) (l w : Label) : Prop :=
  l ∈ b.waiting.getD w ∅

theorem mem_waitingFor {b : Blocks} {l w : Label} : l ∈ b.waitingFor w <-> b.Waits l w :=
  Std.HashSet.mem_toList

@[simp] theorem not_isBlocked_empty (l : Label) : ¬ empty.IsBlocked l :=
  Std.HashSet.not_mem_empty

@[simp] theorem not_waits_empty (l w : Label) : ¬ empty.Waits l w := by
  rw [Waits, empty, Std.HashMap.getD_empty]
  exact Std.HashSet.not_mem_empty

@[simp] theorem isBlocked_block {b : Blocks} {l m : Label} :
    (b.block l).IsBlocked m <-> m = l ∨ b.IsBlocked m := by
  rw [IsBlocked, block, Std.HashSet.mem_insert, beq_iff_eq, eq_comm]
  rfl

@[simp] theorem waits_block {b : Blocks} {l m w : Label} :
    (b.block l).Waits m w <-> b.Waits m w := Iff.rfl

@[simp] theorem isBlocked_wait {b : Blocks} {l m : Label} {others : List Label} :
    (b.wait l others).IsBlocked m <-> b.IsBlocked m := Iff.rfl

@[simp] theorem waits_wait {b : Blocks} {l m w : Label} {others : List Label} :
    (b.wait l others).Waits m w <-> (m = l ∧ w ∈ others) ∨ b.Waits m w := by
  rw [Waits, wait, Waits]
  generalize b.waiting = waiting
  induction others generalizing waiting with
  | nil => simp
  | cons o others ih =>
      rw [List.foldl_cons, ih, Std.HashMap.getD_alter, List.mem_cons]
      by_cases how : o = w
      · subst how
        rw [if_pos (beq_self_eq_true o), Option.getD_some, Std.HashSet.mem_insert, beq_iff_eq,
          ← Std.HashMap.getD_eq_getD_getElem?]
        tauto
      · rw [if_neg (by simpa using how)]
        tauto

@[simp] theorem isBlocked_release {b : Blocks} {l m : Label} :
    (b.release l).IsBlocked m <-> m ≠ l ∧ b.IsBlocked m := by
  rw [IsBlocked, release, Std.HashSet.mem_erase, beq_eq_false_iff_ne, ne_comm]
  rfl

@[simp] theorem waits_release {b : Blocks} {l m w : Label} :
    (b.release l).Waits m w <-> w ≠ l ∧ b.Waits m w := by
  rw [Waits, release, Std.HashMap.getD_erase]
  by_cases hlw : l = w
  · simp [hlw]
  · simp [hlw, Waits, Ne.symm hlw]

/-!
## Unblocking
-/

/-- The labels that are taken out when some labels are unblocked. -/
inductive Released (b : Blocks) (pending : List Label) : Label -> Prop where
  | pending {l : Label} : l ∈ pending -> Released b pending l
  | wait {l w : Label} :
      Released b pending w -> b.Waits l w -> b.IsBlocked l -> Released b pending l

theorem Released.mono {b b' : Blocks} {pending : List Label} {l : Label}
    (h : Released b pending l) (hwaits : forall l w, b.Waits l w -> b'.Waits l w)
    (hblocked : forall l, b.IsBlocked l -> b'.IsBlocked l) : Released b' pending l := by
  induction h with
  | pending hmem => exact Released.pending hmem
  | wait _ hw hl ih => exact Released.wait ih (hwaits _ _ hw) (hblocked _ hl)

/-- Once a label waits for others, what is released along with one of these may be what
would be released along with the label itself. -/
theorem Released.of_wait {b : Blocks} {v l : Label} {others pending : List Label}
    (h : Released (b.wait v others) pending l) : Released b pending l ∨ Released b [v] l := by
  induction h with
  | pending hmem => exact Or.inl (Released.pending hmem)
  | wait _ hwaits hblocked ih =>
      rcases waits_wait.mp hwaits with ⟨hl, _⟩ | hwaits
      · exact Or.inr (Released.pending (List.mem_singleton.mpr hl))
      · rcases ih with ih | ih
        · exact Or.inl (Released.wait ih hwaits hblocked)
        · exact Or.inr (Released.wait ih hwaits hblocked)

theorem mem_pendingAfter {b : Blocks} {l m : Label} {pending : List Label} :
    m ∈ b.pendingAfter l pending <->
      (b.Waits m l ∧ m ≠ l ∧ b.IsBlocked m) ∨ m ∈ pending := by
  rw [pendingAfter, LabelSet.mem_pushAll, List.mem_filter, mem_waitingFor,
    Std.HashSet.contains_iff_mem]
  change (_ ∧ (b.release l).IsBlocked m) ∨ _ <-> _
  rw [isBlocked_release]

theorem released_cons_iff {b : Blocks} {l m : Label} {pending : List Label} :
    Released b (l :: pending) m <->
      m = l ∨ Released (b.release l) (b.pendingAfter l pending) m := by
  constructor
  · intro h
    induction h with
    | pending hm =>
        rcases List.mem_cons.mp hm with hm | hm
        · exact Or.inl hm
        · exact Or.inr (Released.pending (mem_pendingAfter.mpr (Or.inr hm)))
    | wait hw hwaits hblocked ih =>
        rename_i m w
        by_cases hml : m = l
        · exact Or.inl hml
        · apply Or.inr
          by_cases hwl : w = l
          · subst hwl
            exact Released.pending (mem_pendingAfter.mpr (Or.inl ⟨hwaits, hml, hblocked⟩))
          · exact Released.wait (ih.resolve_left hwl) (waits_release.mpr ⟨hwl, hwaits⟩)
              (isBlocked_release.mpr ⟨hml, hblocked⟩)
  · rintro (rfl | h)
    · exact Released.pending List.mem_cons_self
    · induction h with
      | pending hm =>
          rcases mem_pendingAfter.mp hm with ⟨hwaits, _, hblocked⟩ | hm
          · exact Released.wait (Released.pending List.mem_cons_self) hwaits hblocked
          · exact Released.pending (List.mem_cons_of_mem l hm)
      | wait _ hwaits hblocked ih =>
          exact Released.wait ih (waits_release.mp hwaits).2 (isBlocked_release.mp hblocked).2

theorem not_released_nil {b : Blocks} {l : Label} : ¬ Released b [] l := by
  intro h
  induction h with
  | pending hm => cases hm
  | wait _ _ _ ih => exact ih

theorem unblock_spec (b : Blocks) (pending : List Label) :
    (forall m, (b.unblock pending).IsBlocked m <-> b.IsBlocked m ∧ ¬ Released b pending m) ∧
      forall m w, (b.unblock pending).Waits m w <-> b.Waits m w ∧ ¬ Released b pending w := by
  induction b, pending using unblock.induct with
  | case1 b =>
      rw [unblock]
      simp [not_released_nil]
  | case2 b l pending ih =>
      rw [unblock]
      constructor
      · intro m
        rw [ih.1, isBlocked_release, released_cons_iff]
        tauto
      · intro m w
        rw [ih.2, waits_release, released_cons_iff]
        tauto

theorem isBlocked_unblock {b : Blocks} {pending : List Label} {m : Label} :
    (b.unblock pending).IsBlocked m <-> b.IsBlocked m ∧ ¬ Released b pending m :=
  (unblock_spec b pending).1 m

theorem waits_unblock {b : Blocks} {pending : List Label} {m w : Label} :
    (b.unblock pending).Waits m w <-> b.Waits m w ∧ ¬ Released b pending w :=
  (unblock_spec b pending).2 m w

end Blocks
end LabelGraph
end TaintTrace
