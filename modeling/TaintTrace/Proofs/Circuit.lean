import Mathlib
import TaintTrace.Graph.Cycle
import TaintTrace.Proofs.Blocks

/-!
# The search for the cycles through one label

A search extends the list of cycles by those that begin with a path, in lexicographic
order, and ends early only when there is no more room.  The proof follows the recursion
of the search.  One invariant says what blocked labels mean: behind the path they cannot
lead back to the first label, and unblocking a label of the path never unblocks one
that comes before it.
-/

namespace TaintTrace
namespace LabelGraph

/-!
## Found cycles
-/

namespace CycleSearch

/-- A search goes from one state to another by adding cycles with a property, in order.
Cycles with the property are left out only when the search is full, and these come after
all that were added. -/
structure Adds (Q : Cycle -> Prop) (s s' : CycleSearch) (new : List Cycle) : Prop where
  found : s'.found = new.reverse ++ s.found
  room : s'.room = s.room.map (· - new.length)
  fits : forall n, s.room = some n -> new.length ≤ n
  sound : forall c, c ∈ new -> Q c
  sorted : new.Pairwise (· < ·)
  complete : forall c, Q c -> c ∈ new ∨ (s'.full = true ∧ forall d, d ∈ new -> d < c)

def Extends (Q : Cycle -> Prop) (s s' : CycleSearch) : Prop :=
  exists new, Adds Q s s' new

variable {Q R : Cycle -> Prop} {s s' s'' : CycleSearch}

theorem full_iff {s : CycleSearch} : s.full = true <-> s.room = some 0 := by
  rw [full, beq_iff_eq]

theorem Extends.of_full (h : s.full = true) : Extends Q s s := by
  refine ⟨[], ?_, ?_, ?_, ?_, ?_, ?_⟩
  · rfl
  · simp
  · simp
  · simp
  · exact List.Pairwise.nil
  · intro c _
    exact Or.inr ⟨h, by simp⟩

theorem Extends.of_forall_not (h : forall c, ¬ Q c) : Extends Q s s := by
  refine ⟨[], ?_, ?_, ?_, ?_, ?_, ?_⟩
  · rfl
  · simp
  · simp
  · simp
  · exact List.Pairwise.nil
  · intro c hc
    exact absurd hc (h c)

theorem Extends.add {c : Cycle} (hroom : s.full = false) (h : forall d, Q d <-> d = c) :
    Extends Q s (s.add c) := by
  refine ⟨[c], ?_, ?_, ?_, ?_, ?_, ?_⟩
  · rfl
  · rfl
  · intro n hn
    refine Nat.pos_of_ne_zero ?_
    rintro rfl
    rw [full_iff.mpr hn] at hroom
    cases hroom
  · intro d hd
    exact (h d).mpr (List.mem_singleton.mp hd)
  · exact List.pairwise_singleton _ _
  · intro d hd
    exact Or.inl (List.mem_singleton.mpr ((h d).mp hd))

theorem Adds.congr {new : List Cycle} (h : Adds Q s s' new) (hiff : forall c, Q c <-> R c) :
    Adds R s s' new :=
  ⟨h.found, h.room, h.fits, fun c hc => (hiff c).mp (h.sound c hc), h.sorted,
    fun c hc => h.complete c ((hiff c).mpr hc)⟩

theorem Extends.congr (h : Extends Q s s') (hiff : forall c, Q c <-> R c) : Extends R s s' := by
  rcases h with ⟨new, h⟩
  exact ⟨new, h.congr hiff⟩

theorem Extends.full (h : Extends Q s s') (hfull : s.full = true) : s'.full = true := by
  rcases h with ⟨new, h⟩
  rw [full_iff] at hfull ⊢
  rw [h.room, hfull]
  simp

theorem Extends.not_full (h : Extends Q s s') (hfull : s'.full = false) : s.full = false := by
  cases hs : s.full with
  | false => rfl
  | true =>
      rw [h.full hs] at hfull
      cases hfull

/-- One extension after another, when all cycles of the first come before those of the
second and a full search is not extended any more. -/
theorem Extends.trans (h : Extends Q s s') (h' : Extends R s' s'')
    (hbefore : forall c d, Q c -> R d -> c < d) (hstop : s'.full = true -> s'' = s') :
    Extends (fun c => Q c ∨ R c) s s'' := by
  rcases h with ⟨new, h⟩
  rcases h' with ⟨new', h'⟩
  refine ⟨new ++ new', ?_, ?_, ?_, ?_, ?_, ?_⟩
  · rw [h'.found, h.found, List.reverse_append, List.append_assoc]
  · rw [h'.room, h.room, Option.map_map, List.length_append]
    congr 1
    funext n
    simp only [Function.comp_apply]
    omega
  · intro n hn
    have hfirst := h.fits n hn
    have hsecond := h'.fits (n - new.length) (by rw [h.room, hn]; rfl)
    rw [List.length_append]
    omega
  · intro c hc
    rcases List.mem_append.mp hc with hc | hc
    · exact Or.inl (h.sound c hc)
    · exact Or.inr (h'.sound c hc)
  · refine List.pairwise_append.mpr ⟨h.sorted, h'.sorted, ?_⟩
    intro c hc d hd
    exact hbefore c d (h.sound c hc) (h'.sound d hd)
  · rintro c (hc | hc)
    · rcases h.complete c hc with hmem | ⟨hfull, hlast⟩
      · exact Or.inl (List.mem_append_left new' hmem)
      · have hsame := hstop hfull
        have hnone : new' = [] := by
          have hfound := h'.found
          rw [hsame] at hfound
          simpa using hfound
        rw [hsame, hnone, List.append_nil]
        exact Or.inr ⟨hfull, hlast⟩
    · rcases h'.complete c hc with hmem | ⟨hfull, hlast⟩
      · exact Or.inl (List.mem_append_right new hmem)
      · refine Or.inr ⟨hfull, ?_⟩
        intro d hd
        rcases List.mem_append.mp hd with hd | hd
        · exact hbefore d c (h.sound d hd) hc
        · exact hlast d hd

theorem Adds.nodup {new : List Cycle} (h : Adds Q s s' new) : new.Nodup := by
  refine h.sorted.imp ?_
  rintro c d hlt rfl
  exact List.lt_irrefl c hlt

/-- What one search adds another one adds as well, if both begin with the same room. -/
theorem Adds.subset {new new' : List Cycle} (h : Adds Q s s' new) (h' : Adds Q s s'' new') :
    new ⊆ new' := by
  intro c hc
  rcases h'.complete c (h.sound c hc) with hmem | ⟨hfull, hlast⟩
  · exact hmem
  · -- All that the second search found is found by the first one, which goes on to `c`.
    have hsub : c :: new' ⊆ new := by
      rw [List.cons_subset]
      refine ⟨hc, ?_⟩
      intro d hd
      refine (h.complete d (h'.sound d hd)).resolve_right ?_
      rintro ⟨_, hbefore⟩
      exact List.lt_irrefl _ (List.lt_trans (hbefore c hc) (hlast d hd))
    have hnodup : (c :: new').Nodup :=
      List.nodup_cons.mpr ⟨fun hmem => List.lt_irrefl _ (hlast c hmem), h'.nodup⟩
    have hlength := (List.subperm_of_subset hnodup hsub).length_le
    rw [full_iff, h'.room, Option.map_eq_some_iff] at hfull
    rcases hfull with ⟨n, hroom, hzero⟩
    have hfits := h.fits n hroom
    rw [List.length_cons] at hlength
    omega

theorem Adds.unique {new new' : List Cycle} (h : Adds Q s s' new) (h' : Adds Q s s'' new') :
    new = new' := by
  refine List.Perm.eq_of_pairwise ?_ h.sorted h'.sorted ?_
  · intro c d _ _ hcd hdc
    exact absurd (List.lt_trans hcd hdc) (List.lt_irrefl _)
  · rw [List.perm_ext_iff_of_nodup h.nodup h'.nodup]
    exact fun c => ⟨fun hc => h.subset h' hc, fun hc => h'.subset h hc⟩

theorem Adds.mem_of_room_eq_none {all : List Cycle} (h : Adds Q s s' all) (hroom : s.room = none)
    {c : Cycle} (hc : Q c) : c ∈ all := by
  rcases h.complete c hc with hmem | ⟨hfull, _⟩
  · exact hmem
  · rw [full_iff, h.room, hroom] at hfull
    cases hfull

/-- A search with room for some cycles adds the first ones of those that a search without a
limit adds: cutting the longer list off there is a search that adds them, and there is only
one such list. -/
theorem Adds.eq_take {r r' : CycleSearch} {new all : List Cycle} {n : Nat}
    (h : Adds Q s s' new) (hroom : s.room = some n) (hall : Adds Q r r' all)
    (hfree : r.room = none) : new = all.take n := by
  have hcut : Adds Q s ⟨s.room.map (· - (all.take n).length), (all.take n).reverse ++ s.found⟩
      (all.take n) := by
    constructor
    · rfl
    · rfl
    · intro k hk
      rw [hroom] at hk
      cases hk
      exact List.length_take_le n all
    · intro c hc
      exact hall.sound c (List.mem_of_mem_take hc)
    · exact hall.sorted.sublist (List.take_sublist n all)
    · intro c hc
      have hmem := hall.mem_of_room_eq_none hfree hc
      have hsorted := hall.sorted
      rw [← List.take_append_drop n all] at hmem hsorted
      rcases List.mem_append.mp hmem with htaken | hdropped
      · exact Or.inl htaken
      · have hlength : n ≤ all.length := by
          by_contra hshort
          rw [List.drop_eq_nil_of_le (Nat.le_of_not_le hshort)] at hdropped
          cases hdropped
        have hfull : s.room.map (· - (all.take n).length) = some 0 := by
          rw [hroom, List.length_take_of_le hlength, Option.map_some, Nat.sub_self]
        exact Or.inr ⟨full_iff.mpr hfull,
          fun d hd => (List.pairwise_append.mp hsorted).2.2 d hd c hdropped⟩
  exact h.unique hcut

end CycleSearch

/-!
## Ways back
-/

/-- The ways from a label back to the first one that pass no label twice and no label of
the path before it. -/
inductive Closing (next : Label -> List Label) (first : Label) :
    (path : List Label) -> Label -> List Label -> Prop where
  | close {path : List Label} {v : Label} :
      first ∈ next v -> Closing next first path v [first]
  | step {path rest : List Label} {v w : Label} :
      w ∈ next v -> w ≠ first -> w ∉ v :: path -> Closing next first (v :: path) w rest ->
      Closing next first path v (w :: rest)

/-- The cycles that begin with a path and a label after it. -/
def Through (next : Label -> List Label) (first : Label) (path : List Label) (v : Label)
    (c : Cycle) : Prop :=
  exists rest, Closing next first path v rest ∧ c = (v :: path).reverse ++ rest

/-- The cycles that begin with a path and go on to one of some labels. -/
def ThroughOne (next : Label -> List Label) (first : Label) (path : List Label) (v : Label)
    (ws : List Label) (c : Cycle) : Prop :=
  exists w, w ∈ ws ∧ exists rest, Closing next first path v (w :: rest) ∧
    c = (v :: path).reverse ++ w :: rest

variable {next : Label -> List Label} {first v : Label} {path : List Label}

theorem throughOne_iff_through {c : Cycle} :
    ThroughOne next first path v (next v) c <-> Through next first path v c := by
  constructor
  · rintro ⟨w, _, rest, hclosing, hc⟩
    exact ⟨w :: rest, hclosing, hc⟩
  · rintro ⟨rest, hclosing, hc⟩
    cases hclosing with
    | close hmem => exact ⟨first, hmem, [], Closing.close hmem, hc⟩
    | step hmem hne hnew htail => exact ⟨_, hmem, _, Closing.step hmem hne hnew htail, hc⟩

theorem throughOne_cons_iff {w : Label} {ws : List Label} {c : Cycle} :
    ThroughOne next first path v (w :: ws) c <->
      ThroughOne next first path v [w] c ∨ ThroughOne next first path v ws c := by
  simp only [ThroughOne, List.exists_mem_cons_iff, List.not_mem_nil, false_and, exists_false,
    or_false]

theorem throughOne_first_iff {c : Cycle} (hmem : first ∈ next v) :
    ThroughOne next first path v [first] c <-> c = (first :: v :: path).reverse := by
  rw [List.reverse_cons]
  constructor
  · rintro ⟨w, hw, rest, hclosing, rfl⟩
    rw [List.mem_singleton] at hw
    subst hw
    cases hclosing with
    | close _ => rfl
    | step _ hne _ _ => exact absurd rfl hne
  · rintro rfl
    exact ⟨first, List.mem_singleton.mpr rfl, [], Closing.close hmem, rfl⟩

theorem throughOne_step_iff {w : Label} {c : Cycle} (hmem : w ∈ next v) (hne : w ≠ first)
    (hnew : w ∉ v :: path) :
    ThroughOne next first path v [w] c <-> Through next first (v :: path) w c := by
  rw [Through, List.reverse_cons]
  constructor
  · rintro ⟨w', hw', rest, hclosing, rfl⟩
    rw [List.mem_singleton] at hw'
    subst hw'
    cases hclosing with
    | close _ => exact absurd rfl hne
    | step _ _ _ htail => exact ⟨rest, htail, by simp⟩
  · rintro ⟨rest, hclosing, rfl⟩
    exact ⟨w, List.mem_singleton.mpr rfl, rest, Closing.step hmem hne hnew hclosing, by simp⟩

theorem throughOne_lt {w : Label} {ws : List Label} {c d : Cycle}
    (hlt : forall u, u ∈ ws -> w < u) (hc : ThroughOne next first path v [w] c)
    (hd : ThroughOne next first path v ws d) : c < d := by
  rcases hc with ⟨u, hu, rest, _, rfl⟩
  rcases hd with ⟨u', hu', rest', _, rfl⟩
  rw [List.mem_singleton] at hu
  subst hu
  exact List.append_left_lt (List.cons_lt_cons_iff.mpr (Or.inl (hlt u' hu')))

/-!
## Blocked labels

Entries of labels that wait may be stale: a label that was unblocked through one target
still waits for the others.  What keeps such an entry from unblocking a label of the path
is that a label enters the path with nothing waiting for it, so whatever waits for it
later entered the path after it.
-/

/-- The invariant of a search along a path, whose labels come last one first. -/
structure Blocking (next : Label -> List Label) (first : Label) (path : List Label)
    (b : Blocks) : Prop where
  nodup : path.Nodup
  onPath : forall l, l ∈ path -> b.IsBlocked l
  awaited : forall l w, b.Waits l w -> b.IsBlocked w
  behind : forall l, b.IsBlocked l -> l ∉ path ->
    forall w, w ∈ next l -> w ≠ first ∧ b.Waits l w
  ordered : path.Pairwise fun l m => ¬ b.Released [l] m

theorem blocking_empty : Blocking next first [] Blocks.empty where
  nodup := List.nodup_nil
  onPath := by simp
  awaited := by simp
  behind := by simp
  ordered := List.Pairwise.nil

namespace Blocking

variable {b : Blocks}

/-- A blocked label behind the path does not lead back to the first label. -/
theorem not_closing (h : Blocking next first path b) {w : Label} (hw : b.IsBlocked w)
    (hpath : w ∉ path) {path' rest : List Label} (hsub : path ⊆ path') :
    ¬ Closing next first path' w rest := by
  intro hclosing
  induction hclosing with
  | close hmem => exact (h.behind _ hw hpath first hmem).1 rfl
  | step hmem hne hnew htail ih =>
      rename_i path' _ w u
      have hu := (h.behind w hw hpath u hmem).2
      have hsub' : path ⊆ w :: path' := List.subset_cons_of_subset w hsub
      exact ih (h.awaited w u hu) (fun hu' => hnew (hsub' hu')) hsub'

theorem not_released_of_enters (h : Blocking next first path b) (hv : ¬ b.IsBlocked v)
    {l : Label} (hl : (b.block v).Released [v] l) : l = v := by
  induction hl with
  | pending hmem => exact List.mem_singleton.mp hmem
  | wait _ hwaits _ ih =>
      rw [ih] at hwaits
      exact absurd (h.awaited _ v hwaits) hv

theorem released_of_enters (h : Blocking next first path b) (hv : ¬ b.IsBlocked v)
    {l m : Label} (hm : (b.block v).Released [l] m) : m = v ∨ b.Released [l] m := by
  induction hm with
  | pending hmem => exact Or.inr (Blocks.Released.pending hmem)
  | wait _ hwaits hblocked ih =>
      rcases ih with rfl | ih
      · exact absurd (h.awaited _ _ hwaits) hv
      · rcases Blocks.isBlocked_block.mp hblocked with hmv | hblocked
        · exact Or.inl hmv
        · exact Or.inr (Blocks.Released.wait ih hwaits hblocked)

theorem enter (h : Blocking next first path b) (hv : ¬ b.IsBlocked v) :
    Blocking next first (v :: path) (b.block v) := by
  have hnew : v ∉ path := fun hmem => hv (h.onPath v hmem)
  constructor
  · exact List.nodup_cons.mpr ⟨hnew, h.nodup⟩
  · intro l hl
    rcases List.mem_cons.mp hl with hl | hl
    · exact Blocks.isBlocked_block.mpr (Or.inl hl)
    · exact Blocks.isBlocked_block.mpr (Or.inr (h.onPath l hl))
  · intro l w hwaits
    exact Blocks.isBlocked_block.mpr (Or.inr (h.awaited l w hwaits))
  · intro l hl hpath
    rw [List.mem_cons, not_or] at hpath
    rcases Blocks.isBlocked_block.mp hl with hl | hl
    · exact absurd hl hpath.1
    · exact h.behind l hl hpath.2
  · refine List.pairwise_cons.mpr ⟨?_, ?_⟩
    · intro m hm hreleased
      rw [h.not_released_of_enters hv hreleased] at hm
      exact hnew hm
    · refine h.ordered.imp_of_mem ?_
      intro l m _ hm hkept hreleased
      rcases h.released_of_enters hv hreleased with rfl | hreleased
      · exact hnew hm
      · exact hkept hreleased

/-- The last label of the path leaves it after a cycle was closed. -/
theorem leaveOpen (h : Blocking next first (v :: path) b) :
    Blocking next first path (b.unblock [v]) := by
  have hordered := List.pairwise_cons.mp h.ordered
  constructor
  · exact h.nodup.tail
  · intro l hl
    exact Blocks.isBlocked_unblock.mpr ⟨h.onPath l (List.mem_cons_of_mem v hl), hordered.1 l hl⟩
  · intro l w hwaits
    rcases Blocks.waits_unblock.mp hwaits with ⟨hwaits, hkept⟩
    exact Blocks.isBlocked_unblock.mpr ⟨h.awaited l w hwaits, hkept⟩
  · intro l hl hpath w hw
    rcases Blocks.isBlocked_unblock.mp hl with ⟨hl, hkept⟩
    have hlv : l ≠ v := by
      rintro rfl
      exact hkept (Blocks.Released.pending List.mem_cons_self)
    have hbehind := h.behind l hl (by simp [hlv, hpath]) w hw
    refine ⟨hbehind.1, Blocks.waits_unblock.mpr ⟨hbehind.2, ?_⟩⟩
    intro hreleased
    exact hkept (Blocks.Released.wait hreleased hbehind.2 hl)
  · refine hordered.2.imp ?_
    intro l m hkept hreleased
    apply hkept
    refine hreleased.mono ?_ ?_
    · intro l w hwaits
      exact (Blocks.waits_unblock.mp hwaits).1
    · intro l hl
      exact (Blocks.isBlocked_unblock.mp hl).1

/-- The last label of the path leaves it when no cycle was closed: it stays blocked and
waits for its targets, which are blocked as well. -/
theorem leaveBlocked (h : Blocking next first (v :: path) b)
    (htargets : forall w, w ∈ next v -> w ≠ first ∧ b.IsBlocked w) :
    Blocking next first path (b.wait v (next v)) := by
  have hordered := List.pairwise_cons.mp h.ordered
  constructor
  · exact h.nodup.tail
  · intro l hl
    exact Blocks.isBlocked_wait.mpr (h.onPath l (List.mem_cons_of_mem v hl))
  · intro l w hwaits
    rcases Blocks.waits_wait.mp hwaits with ⟨_, hw⟩ | hwaits
    · exact Blocks.isBlocked_wait.mpr (htargets w hw).2
    · exact Blocks.isBlocked_wait.mpr (h.awaited l w hwaits)
  · intro l hl hpath w hw
    by_cases hlv : l = v
    · subst hlv
      exact ⟨(htargets w hw).1, Blocks.waits_wait.mpr (Or.inl ⟨rfl, hw⟩)⟩
    · have hbehind := h.behind l (Blocks.isBlocked_wait.mp hl) (by simp [hlv, hpath]) w hw
      exact ⟨hbehind.1, Blocks.waits_wait.mpr (Or.inr hbehind.2)⟩
  · refine hordered.2.imp_of_mem ?_
    intro l m _ hm hkept hreleased
    rcases hreleased.of_wait with hreleased | hreleased
    · exact hkept hreleased
    · exact hordered.1 m hm hreleased

end Blocking

/-!
## Following edges
-/

/-- What a search from a path and a label after it does. -/
structure Explored (next : Label -> List Label) (first : Label) (path : List Label) (v : Label)
    (c : Circuit) (r : Bool × Circuit) : Prop where
  extend : CycleSearch.Extends (Through next first path v) c.search r.2.search
  blocking : r.2.search.full = false -> Blocking next first path r.2.blocks
  kept : r.2.search.full = false -> r.1 = false ->
    forall l, l = v ∨ c.blocks.IsBlocked l -> r.2.blocks.IsBlocked l

/-- What following some edges of the last label of a path does. -/
structure Followed (next : Label -> List Label) (first : Label) (path : List Label) (v : Label)
    (ws : List Label) (s r : Bool × Circuit) : Prop where
  extend : CycleSearch.Extends (ThroughOne next first path v ws) s.2.search r.2.search
  blocking : r.2.search.full = false -> Blocking next first (v :: path) r.2.blocks
  kept : r.2.search.full = false -> r.1 = false ->
    s.1 = false ∧ (forall l, s.2.blocks.IsBlocked l -> r.2.blocks.IsBlocked l) ∧
      forall w, w ∈ ws -> w ≠ first ∧ r.2.blocks.IsBlocked w

/-- A search for going on can be relied on wherever the invariant holds. -/
def Deepens (next : Label -> List Label) (first : Label) (path : List Label) (v : Label)
    (deeper : Label -> Circuit -> Bool × Circuit) : Prop :=
  forall w c, w ∈ next v -> c.search.full = false -> Blocking next first (v :: path) c.blocks ->
    ¬ c.blocks.IsBlocked w -> Explored next first (v :: path) w c (deeper w c)

variable {deeper : Label -> Circuit -> Bool × Circuit} {s : Bool × Circuit}

theorem follow_of_full (hfull : s.2.search.full = true) (w : Label) :
    follow first path deeper s w = s := by
  rw [follow, if_pos hfull]

theorem foldl_follow_of_full (hfull : s.2.search.full = true) (ws : List Label) :
    ws.foldl (follow first path deeper) s = s := by
  induction ws with
  | nil => rfl
  | cons w ws ih => rw [List.foldl_cons, follow_of_full hfull, ih]

theorem contains_iff_isBlocked {b : Blocks} {w : Label} :
    b.blocked.contains w = true <-> b.IsBlocked w :=
  Std.HashSet.contains_iff_mem

theorem follow_followed {w : Label} (hmem : w ∈ next v)
    (hdeeper : Deepens next first path v deeper)
    (hs : s.2.search.full = false -> Blocking next first (v :: path) s.2.blocks) :
    Followed next first path v [w] s (follow first (v :: path) deeper s w) := by
  cases hfull : s.2.search.full with
  | true =>
      rw [follow_of_full hfull]
      refine ⟨CycleSearch.Extends.of_full hfull, hs, ?_⟩
      intro hroom
      rw [hfull] at hroom
      cases hroom
  | false =>
      have hblocking := hs hfull
      rw [follow, if_neg (by simp [hfull])]
      by_cases hfirst : w = first
      · subst hfirst
        rw [if_pos rfl]
        refine ⟨CycleSearch.Extends.add hfull fun c => throughOne_first_iff hmem,
          fun _ => hblocking, ?_⟩
        intro _ hopen
        cases hopen
      · rw [if_neg hfirst]
        split
        · rename_i hcontains
          have hw := contains_iff_isBlocked.mp hcontains
          -- No cycle is missed: a blocked label is on the path or cannot lead back.
          have hnone : forall c, ¬ ThroughOne next first path v [w] c := by
            rintro c ⟨u, hu, rest, hclosing, _⟩
            rw [List.mem_singleton] at hu
            subst hu
            cases hclosing with
            | close _ => exact hfirst rfl
            | step _ _ hnew htail =>
                exact hblocking.not_closing hw hnew (List.Subset.refl _) htail
          refine ⟨CycleSearch.Extends.of_forall_not hnone, fun _ => hblocking, ?_⟩
          intro _ hopen
          refine ⟨hopen, fun l hl => hl, ?_⟩
          intro u hu
          rw [List.mem_singleton.mp hu]
          exact ⟨hfirst, hw⟩
        · rename_i hcontains
          have hw : ¬ s.2.blocks.IsBlocked w := fun hw => hcontains (contains_iff_isBlocked.mpr hw)
          have hnew : w ∉ v :: path := fun hpath => hw (hblocking.onPath w hpath)
          have hexplored := hdeeper w s.2 hmem hfull hblocking hw
          refine ⟨hexplored.extend.congr fun c => (throughOne_step_iff hmem hfirst hnew).symm,
            hexplored.blocking, ?_⟩
          intro hroom hopen
          rcases Bool.or_eq_false_iff.mp hopen with ⟨hclosed, hopen⟩
          have hkept := hexplored.kept hroom hopen
          refine ⟨hclosed, fun l hl => hkept l (Or.inr hl), ?_⟩
          intro u hu
          rw [List.mem_singleton] at hu
          exact ⟨hu ▸ hfirst, hkept u (Or.inl hu)⟩

theorem Followed.trans {w : Label} {ws : List Label} {r r' : Bool × Circuit}
    (h : Followed next first path v [w] s r) (h' : Followed next first path v ws r r')
    (hlt : forall u, u ∈ ws -> w < u) (hstop : r.2.search.full = true -> r' = r) :
    Followed next first path v (w :: ws) s r' := by
  constructor
  · have hextend := h.extend.trans h'.extend (fun c d hc hd => throughOne_lt hlt hc hd)
      (fun hfull => by rw [hstop hfull])
    exact hextend.congr fun c => throughOne_cons_iff.symm
  · exact h'.blocking
  · intro hroom hopen
    rcases h'.kept hroom hopen with ⟨hopen', hgrown', hws⟩
    rcases h.kept (h'.extend.not_full hroom) hopen' with ⟨hopen'', hgrown, hw⟩
    refine ⟨hopen'', fun l hl => hgrown' l (hgrown l hl), ?_⟩
    intro u hu
    rcases List.mem_cons.mp hu with rfl | hu
    · have hu := hw u (List.mem_singleton.mpr rfl)
      exact ⟨hu.1, hgrown' u hu.2⟩
    · exact hws u hu

theorem foldl_followed {ws : List Label} (hsub : ws ⊆ next v) (hsorted : ws.Pairwise (· < ·))
    (hdeeper : Deepens next first path v deeper)
    (hs : s.2.search.full = false -> Blocking next first (v :: path) s.2.blocks) :
    Followed next first path v ws s (ws.foldl (follow first (v :: path) deeper) s) := by
  induction ws generalizing s with
  | nil =>
      refine ⟨CycleSearch.Extends.of_forall_not ?_, hs, ?_⟩
      · rintro c ⟨w, hw, _⟩
        cases hw
      · intro _ hopen
        exact ⟨hopen, fun l hl => hl, by simp⟩
  | cons w ws ih =>
      rw [List.pairwise_cons] at hsorted
      have hstep := follow_followed (hsub List.mem_cons_self) hdeeper hs
      have hrest := ih (fun u hu => hsub (List.mem_cons_of_mem w hu)) hsorted.2 hstep.blocking
      exact hstep.trans hrest hsorted.1 fun hfull => foldl_follow_of_full hfull ws

/-!
## Whole searches
-/

/-- The targets of labels are in order, and all of them are among the keys. -/
structure Searchable (next : Label -> List Label) (keys : List Label) : Prop where
  sorted : forall v, (next v).Pairwise (· < ·)
  closed : forall v w, w ∈ next v -> w ∈ keys

/-- When a search may go on from a path to a label.  The path stays among the keys, so
there is fuel for each label that it can still take. -/
structure Ready (next : Label -> List Label) (first : Label) (keys : List Label) (fuel : Nat)
    (path : List Label) (v : Label) (c : Circuit) : Prop where
  room : c.search.full = false
  blocking : Blocking next first path c.blocks
  free : ¬ c.blocks.IsBlocked v
  among : v :: path ⊆ keys
  fuel : keys.length ≤ path.length + fuel

variable {keys : List Label} {fuel : Nat} {c : Circuit}

theorem Ready.fuel_pos (h : Ready next first keys fuel path v c) : 0 < fuel := by
  have hnew : v ∉ path := fun hmem => h.free (h.blocking.onPath v hmem)
  have hnodup : (v :: path).Nodup := List.nodup_cons.mpr ⟨hnew, h.blocking.nodup⟩
  have hlength := (List.subperm_of_subset hnodup h.among).length_le
  have hfuel := h.fuel
  rw [List.length_cons] at hlength
  omega

theorem Ready.step (hnext : Searchable next keys) (h : Ready next first keys (fuel + 1) path v c)
    {w : Label} {c' : Circuit} (hmem : w ∈ next v) (hroom : c'.search.full = false)
    (hblocking : Blocking next first (v :: path) c'.blocks) (hfree : ¬ c'.blocks.IsBlocked w) :
    Ready next first keys fuel (v :: path) w c' where
  room := hroom
  blocking := hblocking
  free := hfree
  among := List.cons_subset.mpr ⟨hnext.closed v w hmem, h.among⟩
  fuel := by
    have hfuel := h.fuel
    rw [List.length_cons]
    omega

/-- The label of the path that a search ends with leaves the path again. -/
theorem Followed.explored {r : Bool × Circuit}
    (h : Followed next first path v (next v) (false, { c with blocks := c.blocks.block v }) r) :
    Explored next first path v c
      (if r.1 then (true, { r.2 with blocks := r.2.blocks.unblock [v] })
        else (false, { r.2 with blocks := r.2.blocks.wait v (next v) })) := by
  have hextend := h.extend.congr fun c => throughOne_iff_through
  cases hclosed : r.1 with
  | true =>
      refine ⟨hextend, fun hroom => (h.blocking hroom).leaveOpen, ?_⟩
      intro _ hopen
      cases hopen
  | false =>
      refine ⟨hextend, ?_, ?_⟩
      · intro hroom
        exact (h.blocking hroom).leaveBlocked (h.kept hroom hclosed).2.2
      · intro hroom _ l hl
        exact Blocks.isBlocked_wait.mpr
          ((h.kept hroom hclosed).2.1 l (Blocks.isBlocked_block.mpr hl))

theorem circuit_explored (hnext : Searchable next keys) (fuel : Nat) (path : List Label)
    (v : Label) (c : Circuit) (h : Ready next first keys fuel path v c) :
    Explored next first path v c (circuit next first fuel path v c) := by
  induction fuel generalizing path v c with
  | zero => exact absurd h.fuel_pos (Nat.lt_irrefl 0)
  | succ fuel ih =>
      have hdeeper : Deepens next first path v (circuit next first fuel (v :: path)) := by
        intro w c' hmem hroom hblocking hfree
        exact ih (v :: path) w c' (h.step hnext hmem hroom hblocking hfree)
      have hfollowed := foldl_followed (s := (false, { c with blocks := c.blocks.block v }))
        (List.Subset.refl (next v)) (hnext.sorted v) hdeeper (fun _ => h.blocking.enter h.free)
      exact hfollowed.explored

theorem foldl_follow_congr {deeper' : Label -> Circuit -> Bool × Circuit} {ws : List Label}
    (hsub : ws ⊆ next v) (hdeeper : Deepens next first path v deeper)
    (hagree : forall w c, w ∈ next v -> c.search.full = false ->
      Blocking next first (v :: path) c.blocks -> ¬ c.blocks.IsBlocked w ->
      deeper w c = deeper' w c)
    (hs : s.2.search.full = false -> Blocking next first (v :: path) s.2.blocks) :
    ws.foldl (follow first (v :: path) deeper) s =
      ws.foldl (follow first (v :: path) deeper') s := by
  induction ws generalizing s with
  | nil => rfl
  | cons w ws ih =>
      have hmem : w ∈ next v := hsub List.mem_cons_self
      have hsame : follow first (v :: path) deeper s w = follow first (v :: path) deeper' s w := by
        unfold follow
        split
        · rfl
        · rename_i hroom
          rw [Bool.not_eq_true] at hroom
          split
          · rfl
          · split
            · rfl
            · rename_i hcontains
              rw [hagree w s.2 hmem hroom (hs hroom)
                fun hw => hcontains (contains_iff_isBlocked.mpr hw)]
      have hstep := follow_followed hmem hdeeper hs
      rw [List.foldl_cons, List.foldl_cons, ← hsame]
      exact ih (fun u hu => hsub (List.mem_cons_of_mem w hu)) hstep.blocking

/-- A search that has enough fuel never runs out of it: more of it changes nothing. -/
theorem circuit_succ (hnext : Searchable next keys) (fuel : Nat) (path : List Label)
    (v : Label) (c : Circuit) (h : Ready next first keys fuel path v c) :
    circuit next first (fuel + 1) path v c = circuit next first fuel path v c := by
  induction fuel generalizing path v c with
  | zero => exact absurd h.fuel_pos (Nat.lt_irrefl 0)
  | succ fuel ih =>
      have hready : forall w c', w ∈ next v -> c'.search.full = false ->
          Blocking next first (v :: path) c'.blocks -> ¬ c'.blocks.IsBlocked w ->
          Ready next first keys fuel (v :: path) w c' :=
        fun w c' => h.step hnext
      have hagree : forall w c', w ∈ next v -> c'.search.full = false ->
          Blocking next first (v :: path) c'.blocks -> ¬ c'.blocks.IsBlocked w ->
          circuit next first fuel (v :: path) w c' =
            circuit next first (fuel + 1) (v :: path) w c' := by
        intro w c' hmem hroom hblocking hfree
        exact (ih (v :: path) w c' (hready w c' hmem hroom hblocking hfree)).symm
      have hdeeper : Deepens next first path v (circuit next first fuel (v :: path)) := by
        intro w c' hmem hroom hblocking hfree
        exact circuit_explored hnext fuel (v :: path) w c'
          (hready w c' hmem hroom hblocking hfree)
      have hsame := foldl_follow_congr (s := (false, { c with blocks := c.blocks.block v }))
        (List.Subset.refl (next v)) hdeeper hagree (fun _ => h.blocking.enter h.free)
      rw [circuit, circuit, hsame]

theorem circuit_eq_of_le (hnext : Searchable next keys) {bound : Nat} (hle : fuel ≤ bound)
    (h : Ready next first keys fuel path v c) :
    circuit next first bound path v c = circuit next first fuel path v c := by
  induction hle with
  | refl => rfl
  | step hle ih =>
      rename_i bound
      rw [circuit_succ hnext bound path v c, ih]
      exact { h with fuel := Nat.le_trans h.fuel (Nat.add_le_add_left hle path.length) }

end LabelGraph
end TaintTrace
