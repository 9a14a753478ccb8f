import Mathlib
import TaintTrace.Sorting

/-!
# Sorted lists without repetitions

The distinct elements of a list are its elements, each strictly before the next one.
Where a list is sorted by a key first, all elements of one key stand together.
-/

namespace TaintTrace
namespace Sorting

variable {α : Type} [DecidableEq α]

@[simp] theorem mem_consNew {a b : α} {xs : List α} : b ∈ consNew a xs <-> b = a ∨ b ∈ xs := by
  unfold consNew
  split
  · rename_i hhead
    have ha : a ∈ xs := List.mem_of_mem_head? hhead
    constructor
    · exact Or.inr
    · rintro (rfl | hb)
      · exact ha
      · exact hb
  · exact List.mem_cons

@[simp] theorem mem_dropRepeats {a : α} {xs : List α} : a ∈ dropRepeats xs <-> a ∈ xs := by
  induction xs with
  | nil => rfl
  | cons b xs ih =>
      change a ∈ consNew b (dropRepeats xs) <-> _
      rw [mem_consNew, ih, List.mem_cons]

theorem mem_distinct {le : α -> α -> Bool} {a : α} {xs : List α} :
    a ∈ distinct le xs <-> a ∈ xs := by
  rw [distinct, mem_dropRepeats, List.mem_mergeSort]

/-- A sorted list without the elements that equal the next one is strictly sorted, if only
equal elements of it are in order both ways. -/
theorem dropRepeats_pairwise {le : α -> α -> Bool} {xs : List α}
    (antisymm : forall a b, a ∈ xs -> b ∈ xs -> le a b = true -> le b a = true -> a = b)
    (h : xs.Pairwise fun a b => le a b = true) :
    (dropRepeats xs).Pairwise fun a b => le a b = true ∧ a ≠ b := by
  induction xs with
  | nil => exact List.Pairwise.nil
  | cons a xs ih =>
      rw [List.pairwise_cons] at h
      have hrest := ih (fun b c hb hc =>
        antisymm b c (List.mem_cons_of_mem a hb) (List.mem_cons_of_mem a hc)) h.2
      change (consNew a (dropRepeats xs)).Pairwise _
      unfold consNew
      split
      · exact hrest
      · rename_i hhead
        refine List.pairwise_cons.mpr ⟨?_, hrest⟩
        intro b hb
        refine ⟨h.1 b (mem_dropRepeats.mp hb), ?_⟩
        rintro rfl
        cases hlist : dropRepeats xs with
        | nil =>
            rw [hlist] at hb
            cases hb
        | cons c cs =>
            rw [hlist] at hb hrest hhead
            rw [List.pairwise_cons] at hrest
            rcases List.mem_cons.mp hb with heq | hb
            · exact hhead (congrArg some heq.symm)
            · have hc : c ∈ xs := by
                rw [← mem_dropRepeats, hlist]
                exact List.mem_cons_self
              exact (hrest.1 a hb).2 (antisymm c a (List.mem_cons_of_mem a hc)
                List.mem_cons_self (hrest.1 a hb).1 (h.1 c hc))

theorem distinct_pairwise {le : α -> α -> Bool}
    (trans : forall a b c, le a b = true -> le b c = true -> le a c = true)
    (total : forall a b, (le a b || le b a) = true)
    (antisymm : forall a b, le a b = true -> le b a = true -> a = b) (xs : List α) :
    (distinct le xs).Pairwise fun a b => le a b = true ∧ a ≠ b :=
  dropRepeats_pairwise (fun a b _ _ => antisymm a b) (List.pairwise_mergeSort trans total xs)

/-!
## Runs of one key
-/

variable {β κ : Type} {key : β -> κ}

def RunBefore (key : β -> κ) (lt : κ -> κ -> Prop) (g g' : List β) : Prop :=
  g' ≠ [] ∧ forall x y, x ∈ g -> y ∈ g' -> lt (key x) (key y)

theorem RunBefore.trans {lt : κ -> κ -> Prop} (htrans : forall a b c, lt a b -> lt b c -> lt a c)
    {g g' g'' : List β} (h : RunBefore key lt g g') (h' : RunBefore key lt g' g'') :
    RunBefore key lt g g'' := by
  refine ⟨h'.1, ?_⟩
  intro x z hx hz
  rcases List.exists_mem_of_ne_nil g' h.1 with ⟨y, hy⟩
  exact htrans _ _ _ (h.2 x y hx hy) (h'.2 y z hy hz)

variable [DecidableEq κ]

theorem key_eq_of_mem_splitBy {xs g : List β}
    (hg : g ∈ xs.splitBy fun x y => key x == key y) {x y : β} (hx : x ∈ g) (hy : y ∈ g) :
    key x = key y := by
  have hchain : g.IsChain fun x y => key x = key y := by
    refine (List.isChain_of_mem_splitBy hg).imp ?_
    intro x y h
    exact eq_of_beq h
  have htrans : Trans (fun x y => key x = key y) (fun x y => key x = key y)
      (fun x y : β => key x = key y) := ⟨fun h h' => h.trans h'⟩
  have hsymm : Std.Symm (fun x y : β => key x = key y) := ⟨fun _ _ h => h.symm⟩
  have hself : forall x, x ∈ g -> key x = key x := fun _ _ => rfl
  exact hchain.pairwise.forall_of_forall hself hx hy

theorem splitBy_pairwise {lt : κ -> κ -> Prop}
    (htrans : forall a b c, lt a b -> lt b c -> lt a c) {xs : List β}
    (h : xs.Pairwise fun x y => key x = key y ∨ lt (key x) (key y)) :
    (xs.splitBy fun x y => key x == key y).Pairwise (RunBefore key lt) := by
  have hflat : ((xs.splitBy fun x y => key x == key y).flatten).Pairwise
      fun x y => key x = key y ∨ lt (key x) (key y) := by
    rwa [List.flatten_splitBy]
  have hpairs := (List.pairwise_flatten.mp hflat).2
  have hbounds := List.isChain_getLast_head_splitBy (fun x y => key x == key y) xs
  -- Between neighbours the keys differ, so they are in strict order.
  have hchain : (xs.splitBy fun x y => key x == key y).IsChain (RunBefore key lt) := by
    rw [List.isChain_iff_getElem] at hbounds ⊢
    intro i hi
    rcases hbounds i hi with ⟨hg, hg', hkeys⟩
    refine ⟨hg', ?_⟩
    intro x y hx hy
    rw [key_eq_of_mem_splitBy (List.getElem_mem _) hx (List.getLast_mem hg),
      key_eq_of_mem_splitBy (List.getElem_mem _) hy (List.head_mem hg')]
    have horder := List.pairwise_iff_getElem.mp hpairs i (i + 1) (by omega) hi (by omega)
      _ (List.getLast_mem hg) _ (List.head_mem hg')
    exact horder.resolve_left (by simpa using hkeys)
  have hinstance : Trans (RunBefore key lt) (RunBefore key lt) (RunBefore key lt) :=
    ⟨fun h h' => h.trans htrans h'⟩
  exact hchain.pairwise

end Sorting
end TaintTrace
