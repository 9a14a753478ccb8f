import Mathlib
import TaintTrace.Proofs.Address
import TaintTrace.Proofs.Sources

/-!
# Label trees as parts of the unfolding

The unfolding of a label repeats a shared label under each label that refers to it, and goes
around a cycle until it is deep enough.  A label tree grows level by level.  While there is
room, a level of the tree is a level of the unfolding.  The first level that does not fit is
cut where the room ends, and the tree goes no deeper.  So a tree has the first nodes of the
unfolding in breadth-first order: shorter addresses before longer ones, and addresses of one
length in lexicographic order.
-/

namespace TaintTrace
namespace LabelTree

section

variable (nodes : Label -> Except InvalidLabel Node)

/-- What a label refers to; nothing if it has no node. -/
def childrenOf (l : Label) : List Label :=
  (nodes l).toOption.elim [] Node.children

/-- A label at a depth with all that is below it, for a number of levels. -/
def unfolding : (levels depth : Nat) -> Label -> LabelTree
  | 0, depth, l => node l depth []
  | levels + 1, depth, l => node l depth ((childrenOf nodes l).map (unfolding levels (depth + 1)))

/-- A node of an unfolding: its address and its label. -/
abbrev Place := Address × Label

def childPlaces (p : Place) : List Place :=
  (childrenOf nodes p.2).mapIdx fun i c => (p.1 ++ [i], c)

def nextLevel (q : List Place) : List Place :=
  q.flatMap (childPlaces nodes)

def descendants : (levels : Nat) -> List Place -> List Address
  | 0, _ => []
  | levels + 1, q =>
      (nextLevel nodes q).map Prod.fst ++ descendants levels (nextLevel nodes q)

def places (levels : Nat) (q : List Place) : List Address :=
  q.map Prod.fst ++ descendants nodes levels q

end

variable {nodes : Label -> Except InvalidLabel Node} {l : Label} {n d k N : Nat}
  {p : Place} {q : List Place} {a b : Address}

theorem childrenOf_eq {m : Node} (h : nodes l = .ok m) : childrenOf nodes l = m.children := by
  rw [childrenOf, h]
  rfl

theorem length_childPlaces : (childPlaces nodes p).length = (childrenOf nodes p.2).length :=
  List.length_mapIdx

theorem getElem?_childPlaces (i : Nat) : (childPlaces nodes p)[i]? =
    (childrenOf nodes p.2)[i]?.map fun c => (p.1 ++ [i], c) :=
  List.getElem?_mapIdx

theorem mem_childPlaces {e : Place} : e ∈ childPlaces nodes p <->
    exists i c, (childrenOf nodes p.2)[i]? = some c ∧ e = (p.1 ++ [i], c) := by
  simp only [List.mem_iff_getElem?, getElem?_childPlaces, Option.map_eq_some_iff]
  simp only [@eq_comm _ e]

theorem mem_nextLevel {e : Place} : e ∈ nextLevel nodes q <-> exists p, p ∈ q ∧
    exists i c, (childrenOf nodes p.2)[i]? = some c ∧ e = (p.1 ++ [i], c) := by
  simp only [nextLevel, List.mem_flatMap, mem_childPlaces]

theorem map_snd_childPlaces : (childPlaces nodes p).map Prod.snd = childrenOf nodes p.2 := by
  apply List.ext_getElem?
  intro i
  rw [List.getElem?_map, getElem?_childPlaces, Option.map_map]
  exact Option.map_id'

theorem map_snd_nextLevel (q : List Place) : (nextLevel nodes q).map Prod.snd =
    ((q.map Prod.snd).map (childrenOf nodes)).flatten := by
  rw [nextLevel, List.map_flatMap, List.map_map, ← List.flatMap_def]
  simp only [map_snd_childPlaces]
  rfl

theorem descendants_nil (n : Nat) : descendants nodes n [] = [] := by
  induction n with
  | zero => rfl
  | succ n ih => exact ih

/-!
## Levels of an unfolding
-/

theorem nodeAt?_unfolding_nil : (unfolding nodes n d l).nodeAt? [] = some (l, d) := by
  cases n with
  | zero => rfl
  | succ n => rfl

theorem nodeAt?_unfolding_cons (i : Nat) : (unfolding nodes (n + 1) d l).nodeAt? (i :: a) =
    (childrenOf nodes l)[i]?.bind fun c => (unfolding nodes n (d + 1) c).nodeAt? a := by
  rw [unfolding, nodeAt?_cons, List.getElem?_map, Option.bind_map]
  rfl

theorem depth_of_unfolding {x : Label × Nat} (h : (unfolding nodes n d l).nodeAt? a = some x) :
    x.2 = d + a.length := by
  induction a generalizing n d l with
  | nil =>
      rw [nodeAt?_unfolding_nil] at h
      cases h
      rfl
  | cons i a ih =>
      cases n with
      | zero => cases h
      | succ n =>
          rw [nodeAt?_unfolding_cons] at h
          rcases Option.bind_eq_some_iff.mp h with ⟨c, _, hc⟩
          rw [ih hc, List.length_cons, Nat.add_right_comm, Nat.add_assoc]

section

variable (nodes : Label -> Except InvalidLabel Node)

/-- Whether an address is that of a place of a level or is found below it. -/
def Under (levels depth : Nat) (q : List Place) (a : Address) : Prop :=
  exists p, p ∈ q ∧ exists b, a = p.1 ++ b ∧
    ((unfolding nodes levels depth p.2).nodeAt? b).isSome = true

end

theorem under_zero : Under nodes 0 d q a <-> a ∈ q.map Prod.fst := by
  rw [List.mem_map]
  constructor
  · intro hunder
    rcases hunder with ⟨p, hp, b, rfl, hb⟩
    cases b with
    | nil => exact ⟨p, hp, (List.append_nil p.1).symm⟩
    | cons i b => cases hb
  · intro hmem
    rcases hmem with ⟨p, hp, rfl⟩
    exact ⟨p, hp, [], (List.append_nil p.1).symm, rfl⟩

theorem under_succ : Under nodes (n + 1) d q a <->
    a ∈ q.map Prod.fst ∨ Under nodes n (d + 1) (nextLevel nodes q) a := by
  rw [List.mem_map]
  constructor
  · intro hunder
    rcases hunder with ⟨p, hp, b, rfl, hb⟩
    cases b with
    | nil => exact Or.inl ⟨p, hp, (List.append_nil p.1).symm⟩
    | cons i b =>
        rw [nodeAt?_unfolding_cons] at hb
        rcases hc : (childrenOf nodes p.2)[i]? with _ | c
        · rw [hc] at hb
          cases hb
        · rw [hc] at hb
          have he := mem_nextLevel.mpr ⟨p, hp, i, c, hc, rfl⟩
          exact Or.inr ⟨_, he, b, (List.append_assoc p.1 [i] b).symm, hb⟩
  · intro hcases
    rcases hcases with ⟨p, hp, rfl⟩ | ⟨e, he, b, rfl, hb⟩
    · exact ⟨p, hp, [], (List.append_nil p.1).symm, rfl⟩
    · rcases mem_nextLevel.mp he with ⟨p, hp, i, c, hc, rfl⟩
      refine ⟨p, hp, i :: b, List.append_assoc p.1 [i] b, ?_⟩
      rw [nodeAt?_unfolding_cons, hc]
      exact hb

theorem mem_places (n d : Nat) (q : List Place) (a : Address) :
    a ∈ places nodes n q <-> Under nodes n d q a := by
  induction n generalizing d q with
  | zero => rw [under_zero, places, descendants, List.append_nil]
  | succ n ih =>
      rw [under_succ, ← ih (d + 1), places, List.mem_append]
      rfl

/-- A level of an unfolding: addresses of one length, in order. -/
structure IsLevel (N : Nat) (q : List Place) : Prop where
  length_eq : forall p, p ∈ q -> p.1.length = N
  sorted : q.Pairwise fun p p' => List.Shortlex (· < ·) p.1 p'.1

theorem shortlex_append {a a' b b' : Address} (h : List.Shortlex (· < ·) a a')
    (hlength : b.length = b'.length) : List.Shortlex (· < ·) (a ++ b) (a' ++ b') := by
  rcases List.shortlex_def.mp h with hlt | ⟨heq, hlex⟩
  · apply List.Shortlex.of_length_lt
    rw [List.length_append, List.length_append, hlength]
    exact Nat.add_lt_add_right hlt _
  · apply List.Shortlex.of_lex
    · rw [List.length_append, List.length_append, heq, hlength]
    · clear h
      induction hlex with
      | nil => cases heq
      | rel hlt => exact .rel hlt
      | cons _ ih => exact .cons (ih (Nat.succ.inj heq))

namespace IsLevel

theorem next (h : IsLevel N q) : IsLevel (N + 1) (nextLevel nodes q) where
  length_eq e he := by
    rcases mem_nextLevel.mp he with ⟨p, hp, i, c, _, rfl⟩
    rw [List.length_append, h.length_eq p hp]
    rfl
  sorted := by
    rw [nextLevel, List.pairwise_flatMap]
    constructor
    · intro p _
      rw [List.pairwise_iff_getElem]
      intro i j hi hj hij
      simp only [childPlaces, List.getElem_mapIdx]
      exact ((List.shortlex_singleton_iff i j).mpr hij).append_left p.1
    · refine h.sorted.imp ?_
      intro p p' hlt e he e' he'
      rcases mem_childPlaces.mp he with ⟨i, c, _, rfl⟩
      rcases mem_childPlaces.mp he' with ⟨i', c', _, rfl⟩
      exact shortlex_append hlt rfl

theorem take (h : IsLevel N q) (k : Nat) : IsLevel N (q.take k) where
  length_eq p hp := h.length_eq p (List.mem_of_mem_take hp)
  sorted := h.sorted.sublist (List.take_sublist k q)

theorem nodup (h : IsLevel N q) : (q.map Prod.fst).Nodup := by
  refine List.pairwise_map.mpr (h.sorted.imp ?_)
  intro p p' hlt heq
  rw [heq] at hlt
  exact asymm hlt hlt

theorem length_eq_of_mem (h : IsLevel N q) (ha : a ∈ q.map Prod.fst) : a.length = N := by
  rcases List.mem_map.mp ha with ⟨p, hp, rfl⟩
  exact h.length_eq p hp

theorem length_le (h : IsLevel N q) (ha : a ∈ places nodes n q) : N ≤ a.length := by
  rcases (mem_places n 0 q a).mp ha with ⟨p, hp, b, rfl, _⟩
  rw [List.length_append, h.length_eq p hp]
  exact Nat.le_add_right N _

theorem places_sorted (h : IsLevel N q) (n : Nat) :
    (places nodes n q).Pairwise (List.Shortlex (· < ·)) := by
  induction n generalizing N q with
  | zero =>
      rw [places, descendants, List.append_nil]
      exact List.pairwise_map.mpr h.sorted
  | succ n ih =>
      rw [places, List.pairwise_append]
      refine ⟨List.pairwise_map.mpr h.sorted, ih h.next, ?_⟩
      intro a ha b hb
      rcases List.mem_map.mp ha with ⟨p, hp, rfl⟩
      apply List.Shortlex.of_length_lt
      rw [h.length_eq p hp]
      exact h.next.length_le hb

end IsLevel

/-!
## Growing levels
-/

/-- The first labels of lists of children, as far as a number of them goes. -/
def cutTo : Nat -> List (List Label) -> List (List Label)
  | _, [] => []
  | k, cs :: rest => if k < cs.length then [cs.take k] else cs :: cutTo (k - cs.length) rest

theorem flatten_cutTo (k : Nat) (css : List (List Label)) :
    (cutTo k css).flatten = css.flatten.take k := by
  induction css generalizing k with
  | nil => rw [cutTo, List.flatten_nil, List.take_nil]
  | cons cs css ih =>
      rw [cutTo, List.flatten_cons, List.take_append]
      by_cases hlt : k < cs.length
      · rw [if_pos hlt, Nat.sub_eq_zero_of_le (Nat.le_of_lt hlt), List.take_zero,
          List.flatten_singleton, List.append_nil]
      · rw [if_neg hlt, List.flatten_cons, ih, List.take_of_length_le (Nat.le_of_not_lt hlt)]

theorem cutTo_eq_self {css : List (List Label)} (h : css.flatten.length ≤ k) :
    cutTo k css = css := by
  induction css generalizing k with
  | nil => rfl
  | cons cs css ih =>
      rw [List.flatten_cons, List.length_append] at h
      rw [cutTo, if_neg (by omega), ih (by omega)]

variable {ls : List Label}

theorem growLevel_none (hdecodes : forall l, l ∈ ls -> exists m, nodes l = .ok m)
    (grown : List (List Label)) : (growLevel ls none grown).answer nodes =
      .ok ⟨grown.reverse ++ ls.map (childrenOf nodes), none, false⟩ := by
  induction ls generalizing grown with
  | nil =>
      rw [List.map_nil, List.append_nil]
      rfl
  | cons l ls ih =>
      rw [List.forall_mem_cons] at hdecodes
      rcases hdecodes.1 with ⟨m, hm⟩
      rw [growLevel, Lookup.answer_decode, hm]
      dsimp only
      rw [ih hdecodes.2, List.reverse_cons, List.append_assoc, ← childrenOf_eq hm]
      rfl

theorem growLevel_some (hdecodes : forall l, l ∈ ls -> exists m, nodes l = .ok m) (k : Nat)
    (grown : List (List Label)) : (growLevel ls (some k) grown).answer nodes =
      .ok ⟨grown.reverse ++ cutTo k (ls.map (childrenOf nodes)),
        some (k - (ls.map (childrenOf nodes)).flatten.length),
        decide (k < (ls.map (childrenOf nodes)).flatten.length)⟩ := by
  induction ls generalizing k grown with
  | nil =>
      rw [List.map_nil, cutTo, List.append_nil]
      rfl
  | cons l ls ih =>
      rw [List.forall_mem_cons] at hdecodes
      rcases hdecodes.1 with ⟨m, hm⟩
      rw [growLevel, Lookup.answer_decode, hm, List.map_cons, List.flatten_cons,
        List.length_append, cutTo, childrenOf_eq hm]
      dsimp only
      rw [m.childrenUpTo_eq_take, m.length_children]
      by_cases hlt : k < m.childCount
      · rw [if_pos hlt, if_pos hlt, Nat.sub_eq_zero_of_le (by omega),
          decide_eq_true (by omega : k < m.childCount + _), List.reverse_cons]
        rfl
      · rw [if_neg hlt, if_neg hlt, ih hdecodes.2, List.reverse_cons, List.append_assoc,
          List.take_of_length_le (by rw [m.length_children]; omega), m.length_children, Nat.sub_sub]
        congr 2
        simp only [decide_eq_decide]
        omega

theorem growLevel_of_fits {room : Option Nat}
    (hdecodes : forall l, l ∈ ls -> exists m, nodes l = .ok m)
    (hfits : forall k, k ∈ room -> (ls.map (childrenOf nodes)).flatten.length ≤ k) :
    (growLevel ls room []).answer nodes = .ok ⟨ls.map (childrenOf nodes),
      room.map (· - (ls.map (childrenOf nodes)).flatten.length), false⟩ := by
  cases room with
  | none => exact growLevel_none hdecodes []
  | some k =>
      rw [growLevel_some hdecodes, cutTo_eq_self (hfits k rfl),
        decide_eq_false (Nat.not_lt_of_le (hfits k rfl))]
      rfl

/-!
## Handing out trees
-/

section

variable (nodes : Label -> Except InvalidLabel Node)

/-- Whether a tree is the unfolding at a place without the addresses that are not kept. -/
def Agrees (kept : List Address) (levels depth : Nat) (g : LabelTree) (p : Place) : Prop :=
  forall b, g.nodeAt? b =
    if p.1 ++ b ∈ kept then (unfolding nodes levels depth p.2).nodeAt? b else none

end

variable {kept : List Address} {g : LabelTree} {trees : List LabelTree}

theorem agrees_bare (hp : p.1 ∈ kept) (hbelow : forall i b, p.1 ++ i :: b ∉ kept) :
    Agrees nodes kept n d (node p.2 d []) p := by
  intro b
  cases b with
  | nil => rw [List.append_nil, if_pos hp, nodeAt?_unfolding_nil, nodeAt?_nil]
  | cons i b =>
      rw [if_neg (hbelow i b)]
      rfl

theorem exists_of_forall₂ {α β : Type} {R : α -> β -> Prop} {xs : List α} {ys : List β} {i : Nat}
    {y : β} (h : List.Forall₂ R xs ys) (hy : ys[i]? = some y) :
    exists x, xs[i]? = some x ∧ R x y := by
  induction h generalizing i with
  | nil => cases hy
  | cons hxy _ ih =>
      cases i with
      | zero =>
          cases hy
          exact ⟨_, rfl, hxy⟩
      | succ i => exact ih hy

/-- A node agrees if its children agree, as far as they go, and nothing is kept below the
children that it does not have. -/
theorem agrees_node (hp : p.1 ∈ kept)
    (htrees : List.Forall₂ (Agrees nodes kept n (d + 1)) trees ((childPlaces nodes p).take k))
    (hrest : forall e, e ∈ (childPlaces nodes p).drop k -> forall b, e.1 ++ b ∉ kept) :
    Agrees nodes kept (n + 1) d (node p.2 d trees) p := by
  intro b
  cases b with
  | nil => rw [List.append_nil, if_pos hp, nodeAt?_unfolding_nil, nodeAt?_nil]
  | cons i b =>
      have hlength := htrees.length_eq
      rw [List.length_take, length_childPlaces] at hlength
      rw [nodeAt?_cons, nodeAt?_unfolding_cons]
      rcases hc : (childrenOf nodes p.2)[i]? with _ | c
      · rw [List.getElem?_eq_none_iff] at hc
        rw [List.getElem?_eq_none (by omega)]
        exact (ite_self none).symm
      · have hplace : (childPlaces nodes p)[i]? = some (p.1 ++ [i], c) := by
          rw [getElem?_childPlaces, hc]
          rfl
        rcases Nat.lt_or_ge i k with hlt | hge
        · rw [← List.getElem?_take_of_lt hlt] at hplace
          rcases exists_of_forall₂ htrees hplace with ⟨g, hg, hagrees⟩
          rw [hg, ← List.singleton_append, ← List.append_assoc]
          exact hagrees b
        · have hmem : (p.1 ++ [i], c) ∈ (childPlaces nodes p).drop k := by
            rw [List.mem_iff_getElem?]
            exists i - k
            rw [List.getElem?_drop, Nat.add_sub_cancel' hge, hplace]
          have hcut := hrest _ hmem b
          rw [List.append_assoc, List.singleton_append] at hcut
          rw [List.getElem?_eq_none (by omega), if_neg hcut]
          rfl

theorem distribute_nil (d : Nat) (ls : List Label) (trees : List LabelTree) :
    distribute d ls [] trees = ls.map fun l => node l d [] := by
  induction ls with
  | nil => rfl
  | cons l ls ih => rw [distribute, ih, List.map_cons]

theorem agrees_distribute (hq : forall p, p ∈ q -> p.1 ∈ kept)
    (htrees : List.Forall₂ (Agrees nodes kept n (d + 1)) trees ((nextLevel nodes q).take k))
    (hrest : forall e, e ∈ (nextLevel nodes q).drop k -> forall b, e.1 ++ b ∉ kept) :
    List.Forall₂ (Agrees nodes kept (n + 1) d)
      (distribute d (q.map Prod.snd) (cutTo k ((q.map Prod.snd).map (childrenOf nodes))) trees)
      q := by
  induction q generalizing k trees with
  | nil => exact .nil
  | cons p q ih =>
      rw [List.forall_mem_cons] at hq
      rw [nextLevel, List.flatMap_cons] at htrees hrest
      rw [List.map_cons, List.map_cons, cutTo]
      by_cases hlt : k < (childrenOf nodes p.2).length
      · -- The cut is among the children of the first place: all later places stay bare.
        have hle : k ≤ (childPlaces nodes p).length := by
          rw [length_childPlaces]
          exact Nat.le_of_lt hlt
        rw [List.take_append_of_le_length hle] at htrees
        rw [List.drop_append_of_le_length hle, List.forall_mem_append] at hrest
        have hlength := htrees.length_eq
        rw [List.length_take, length_childPlaces, Nat.min_eq_left (Nat.le_of_lt hlt)] at hlength
        rw [if_pos hlt, distribute, distribute_nil, List.length_take,
          Nat.min_eq_left (Nat.le_of_lt hlt), List.take_of_length_le (Nat.le_of_eq hlength),
          List.map_map]
        refine .cons (agrees_node hq.1 htrees hrest.1) ?_
        rw [List.forall₂_map_left_iff, List.forall₂_same]
        intro p' hp'
        apply agrees_node (hq.2 p' hp') (k := 0) (by simp)
        intro e he
        exact hrest.2 e (List.mem_flatMap.mpr ⟨p', hp', he⟩)
      · rw [if_neg hlt]
        rw [← length_childPlaces] at hlt
        rw [List.take_append, List.take_of_length_le (Nat.le_of_not_lt hlt)] at htrees
        rw [List.drop_append, List.drop_of_length_le (Nat.le_of_not_lt hlt), List.nil_append]
          at hrest
        rw [distribute, ← length_childPlaces]
        refine .cons ?_ (ih hq.2 (List.forall₂_drop_append _ _ _ htrees) hrest)
        apply agrees_node hq.1 (k := (childPlaces nodes p).length)
        · rw [List.take_length]
          exact List.forall₂_take_append _ _ _ htrees
        · simp

/-!
## The first nodes of the unfolding
-/

def upTo (room : Option Nat) (as : List Address) : List Address :=
  room.elim as as.take

variable {room : Option Nat}

theorem upTo_nil (room : Option Nat) : upTo room [] = [] := by
  cases room with
  | none => rfl
  | some k => exact List.take_nil

theorem upTo_append {as bs : List Address} (h : forall k, k ∈ room -> as.length ≤ k) :
    upTo room (as ++ bs) = as ++ upTo (room.map (· - as.length)) bs := by
  cases room with
  | none => rfl
  | some k =>
      show (as ++ bs).take k = as ++ bs.take (k - as.length)
      rw [List.take_append, List.take_of_length_le (h k rfl)]

section

variable (nodes : Label -> Except InvalidLabel Node)

/-- Whether of the addresses that are at least as long as those of a level, just that level and
as many below it as there is room for are kept. -/
def Keeps (kept : List Address) (N levels : Nat) (q : List Place) (room : Option Nat) : Prop :=
  forall a, N ≤ a.length ->
    (a ∈ kept <-> a ∈ q.map Prod.fst ++ upTo room (descendants nodes levels q))

end

namespace Keeps

theorem mem (h : Keeps nodes kept N n q room) (hq : IsLevel N q) (hp : p ∈ q) : p.1 ∈ kept := by
  rw [h p.1 (Nat.le_of_eq (hq.length_eq p hp).symm)]
  exact List.mem_append_left _ (List.mem_map_of_mem hp)

theorem mem_longer (h : Keeps nodes kept N n q room) (hq : IsLevel N q) (ha : N < a.length) :
    a ∈ kept <-> a ∈ upTo room (descendants nodes n q) := by
  have hlonger : a ∉ q.map Prod.fst := by
    intro hmem
    exact Nat.ne_of_gt ha (hq.length_eq_of_mem hmem)
  rw [h a (Nat.le_of_lt ha), List.mem_append, or_iff_right hlonger]

theorem next (h : Keeps nodes kept N (n + 1) q room) (hq : IsLevel N q)
    (hfits : forall k, k ∈ room -> (nextLevel nodes q).length ≤ k) :
    Keeps nodes kept (N + 1) n (nextLevel nodes q)
      (room.map (· - (nextLevel nodes q).length)) := by
  intro a ha
  rw [h.mem_longer hq ha, descendants, upTo_append (by rwa [List.length_map]), List.length_map]

theorem take (h : Keeps nodes kept N (n + 1) q (some k)) (hq : IsLevel N q)
    (hcut : k ≤ (nextLevel nodes q).length) :
    Keeps nodes kept (N + 1) 0 ((nextLevel nodes q).take k) none := by
  intro a ha
  rw [h.mem_longer hq ha, descendants, descendants, upTo_nil, List.append_nil, List.map_take]
  show a ∈ List.take k _ <-> _
  rw [List.take_append_of_le_length (by rwa [List.length_map])]

theorem not_mem_of_mem_drop (h : Keeps nodes kept N 0 (q.take k) none) (hq : IsLevel N q)
    (hp : p ∈ q.drop k) (b : Address) : p.1 ++ b ∉ kept := by
  have hlength := hq.length_eq p (List.mem_of_mem_drop hp)
  have hle : N ≤ (p.1 ++ b).length := by
    rw [List.length_append, hlength]
    exact Nat.le_add_right N b.length
  intro hmem
  rw [h _ hle, descendants, upTo_nil, List.append_nil, List.map_take] at hmem
  have hsame := hq.length_eq_of_mem (List.mem_of_mem_take hmem)
  rw [List.length_append, hlength, Nat.add_eq_left, List.length_eq_zero_iff] at hsame
  rw [hsame, List.append_nil] at hmem
  have hdropped : p.1 ∈ (q.map Prod.fst).drop k := by
    rw [← List.map_drop]
    exact List.mem_map_of_mem hp
  exact List.disjoint_take_drop hq.nodup (Nat.le_refl k) hmem hdropped

theorem agrees_leaves (h : Keeps nodes kept N 0 q room) (hq : IsLevel N q) :
    List.Forall₂ (Agrees nodes kept n d) ((q.map Prod.snd).map fun l => node l d []) q := by
  rw [List.map_map, List.forall₂_map_left_iff, List.forall₂_same]
  intro p hp
  apply agrees_bare (h.mem hq hp)
  intro i b hmem
  have hlonger : N < (p.1 ++ i :: b).length := by
    rw [List.length_append, hq.length_eq p hp]
    exact Nat.lt_add_of_pos_right (Nat.succ_pos b.length)
  rw [h.mem_longer hq hlonger, descendants, upTo_nil] at hmem
  cases hmem

end Keeps

/-!
## Growing level after level
-/

section

variable (nodes : Label -> Except InvalidLabel Node)

def Decodes (l : Label) : Prop :=
  forall m, Sources.Depends nodes l m -> exists x, nodes m = .ok x

/-- Whether growing below a level ends with trees that agree with the unfolding, and reports
a cut only if there is no room for all of it. -/
def Grows (kept : List Address) (levels depth : Nat) (q : List Place) (room : Option Nat) : Prop :=
  forall grown, exists found complete,
    (growLevels levels (q.map Prod.snd) room grown).answer nodes =
      .ok (grown.reverse ++ found, complete) ∧
    (complete = true <-> forall k, k ∈ room -> (descendants nodes levels q).length ≤ k) ∧
    List.Forall₂ (Agrees nodes kept levels depth) (assemble depth (q.map Prod.snd) found) q

end

theorem growLevels_of_level {level : Level} {grown : List (List (List Label))} (hls : ls ≠ [])
    (hlevel : (growLevel ls room []).answer nodes = .ok level) :
    (growLevels (n + 1) ls room grown).answer nodes =
      if level.cut then .ok ((level.children :: grown).reverse, false)
      else (growLevels n level.children.flatten level.room
        (level.children :: grown)).answer nodes := by
  rw [growLevels, Lookup.answer_bind, hlevel]
  · dsimp only
    split
    · rfl
    · rfl
  · exact hls

theorem decodes_nextLevel (h : forall p, p ∈ q -> Decodes nodes p.2) :
    forall p, p ∈ nextLevel nodes q -> Decodes nodes p.2 := by
  intro e he m hm
  rcases mem_nextLevel.mp he with ⟨p, hp, i, c, hc, rfl⟩
  rcases h p hp p.2 .refl with ⟨x, hx⟩
  rw [childrenOf_eq hx] at hc
  have hrefers : Sources.Refers nodes p.2 c := ⟨x, hx, List.mem_of_getElem? hc⟩
  exact h p hp m (.head hrefers hm)

theorem decodes_labels (h : forall p, p ∈ q -> Decodes nodes p.2) :
    forall l, l ∈ q.map Prod.snd -> exists x, nodes l = .ok x := by
  intro l hl
  rcases List.mem_map.mp hl with ⟨p, hp, rfl⟩
  exact h p hp p.2 .refl

theorem length_flatten_children (q : List Place) :
    ((q.map Prod.snd).map (childrenOf nodes)).flatten.length = (nextLevel nodes q).length := by
  rw [← map_snd_nextLevel, List.length_map]

theorem grows_of_fits (hdecodes : forall p, p ∈ q -> Decodes nodes p.2) (hnil : q ≠ [])
    (hkept : forall p, p ∈ q -> p.1 ∈ kept)
    (hfits : forall k, k ∈ room -> (nextLevel nodes q).length ≤ k)
    (hnext : Grows nodes kept n (d + 1) (nextLevel nodes q)
      (room.map (· - (nextLevel nodes q).length))) :
    Grows nodes kept (n + 1) d q room := by
  intro grown
  have htotal : ((q.map Prod.snd).map (childrenOf nodes)).flatten.length = _ :=
    length_flatten_children q
  have hlevel := growLevel_of_fits (decodes_labels hdecodes) (by rwa [htotal])
  rw [htotal] at hlevel
  rcases hnext ((q.map Prod.snd).map (childrenOf nodes) :: grown) with
    ⟨found, complete, hfound, hcomplete, htrees⟩
  refine ⟨(q.map Prod.snd).map (childrenOf nodes) :: found, complete, ?_, ?_, ?_⟩
  · rw [growLevels_of_level (by simpa using hnil) hlevel, if_neg Bool.false_ne_true,
      ← map_snd_nextLevel, hfound, List.reverse_cons, List.append_assoc]
    rfl
  · rw [hcomplete, descendants, List.length_append, List.length_map]
    cases room with
    | none => simp
    | some k =>
        have hk := hfits k rfl
        simp only [Option.map_some, Option.mem_def, Option.some.injEq, forall_eq']
        omega
  · rw [assemble, ← map_snd_nextLevel]
    have hgiven := agrees_distribute hkept (k := (nextLevel nodes q).length)
      (by rwa [List.take_length]) (by simp)
    rwa [cutTo_eq_self (Nat.le_of_eq htotal)] at hgiven

theorem grows_of_cut (hdecodes : forall p, p ∈ q -> Decodes nodes p.2) (hq : IsLevel N q)
    (hnil : q ≠ []) (hkept : Keeps nodes kept N (n + 1) q (some k))
    (hcut : k < (nextLevel nodes q).length) : Grows nodes kept (n + 1) d q (some k) := by
  intro grown
  have hlast := hkept.take hq (Nat.le_of_lt hcut)
  refine ⟨[cutTo k ((q.map Prod.snd).map (childrenOf nodes))], false, ?_, ?_, ?_⟩
  · rw [growLevels_of_level (by simpa using hnil) (growLevel_some (decodes_labels hdecodes) k []),
      if_pos, List.reverse_cons]
    · rfl
    · rw [length_flatten_children]
      exact decide_eq_true hcut
  · rw [descendants, List.length_append, List.length_map]
    simp only [Bool.false_eq_true, Option.mem_def, Option.some.injEq, forall_eq', false_iff]
    omega
  · rw [assemble, assemble, flatten_cutTo, ← map_snd_nextLevel, ← List.map_take]
    apply agrees_distribute
    · intro p hp
      exact hkept.mem hq hp
    · exact hlast.agrees_leaves (hq.next.take k)
    · intro e he b
      exact hlast.not_mem_of_mem_drop hq.next he b

theorem grows (hdecodes : forall p, p ∈ q -> Decodes nodes p.2) (hq : IsLevel N q)
    (hkept : Keeps nodes kept N n q room) (d : Nat) : Grows nodes kept n d q room := by
  induction n generalizing N q room d with
  | zero =>
      intro grown
      refine ⟨[], true, ?_, by simp [descendants], hkept.agrees_leaves hq⟩
      rw [List.append_nil]
      rfl
  | succ n ih =>
      by_cases hnil : q = []
      · intro grown
        rw [hnil]
        refine ⟨[], true, ?_, by simp [descendants_nil], .nil⟩
        rw [List.append_nil]
        rfl
      · by_cases hfits : forall k, k ∈ room -> (nextLevel nodes q).length ≤ k
        · apply grows_of_fits hdecodes hnil _ hfits
          · exact ih (decodes_nextLevel hdecodes) hq.next (hkept.next hq hfits) (d + 1)
          · intro p hp
            exact hkept.mem hq hp
        · rcases Classical.not_forall.mp hfits with ⟨k, hk⟩
          rcases Classical.not_imp.mp hk with ⟨rfl, hcut⟩
          exact grows_of_cut hdecodes hq hnil hkept (Nat.lt_of_not_le hcut)

/-- The number of nodes below the root that a bound on all nodes leaves room for. -/
def roomFor (maxNodes : Int) : Option Nat :=
  if 0 < maxNodes then some (maxNodes.toNat - 1) else none

theorem isLevel_root (l : Label) : IsLevel 0 [([], l)] where
  length_eq := by simp
  sorted := List.pairwise_singleton _ _

theorem labelTree_agrees (hdecodes : Decodes nodes l) (depth maxNodes : Int) :
    exists tree complete,
      (Lookup.labelTree l depth maxNodes).answer nodes = .ok (tree, complete) ∧
      (complete = true <-> forall k, k ∈ roomFor maxNodes ->
        (descendants nodes depth.toNat [([], l)]).length ≤ k) ∧
      Agrees nodes ([] :: upTo (roomFor maxNodes) (descendants nodes depth.toNat [([], l)]))
        depth.toNat 0 tree ([], l) := by
  -- Every address is at least as long as that of the root, so what is kept is what the root
  -- keeps, by definition.
  have hgrows := grows (by simpa using hdecodes) (isLevel_root l)
    (fun _ _ => Iff.rfl : Keeps nodes _ 0 depth.toNat [([], l)] (roomFor maxNodes)) 0
  rcases hgrows [] with ⟨found, complete, hfound, hcomplete, htrees⟩
  rcases List.forall₂_cons_right_iff.mp htrees with ⟨tree, rest, hagrees, _, htree⟩
  rcases hdecodes l .refl with ⟨x, hx⟩
  refine ⟨tree, complete, ?_, hcomplete, hagrees⟩
  rw [Lookup.labelTree, Lookup.answer_decode, hx]
  have hfound : (growLevels depth.toNat [l] (roomFor maxNodes) []).answer nodes =
      .ok (found, complete) := hfound
  have htree : assemble 0 [l] found = tree :: rest := htree
  rw [roomFor] at hfound
  dsimp only
  rw [Lookup.answer_bind, hfound]
  dsimp only
  rw [htree]
  rfl

theorem fits_roomFor_iff {as : List Address} {maxNodes : Int} :
    (forall k, k ∈ roomFor maxNodes -> as.length ≤ k) <->
      (maxNodes ≤ 0 ∨ (([] :: as).length : Int) ≤ maxNodes) := by
  rw [roomFor, List.length_cons]
  split
  · simp only [Option.mem_def, Option.some.injEq, forall_eq']
    omega
  · simp
    omega

theorem cons_upTo_roomFor {as : List Address} {maxNodes : Int} (h : 0 < maxNodes) :
    [] :: upTo (roomFor maxNodes) as = ([] :: as).take maxNodes.toNat := by
  have htoNat : maxNodes.toNat = maxNodes.toNat - 1 + 1 := by omega
  rw [roomFor, if_pos h, htoNat]
  rfl

theorem cons_upTo_of_fits {as : List Address} {room : Option Nat}
    (h : forall k, k ∈ room -> as.length ≤ k) : [] :: upTo room as = [] :: as := by
  cases room with
  | none => rfl
  | some k => rw [upTo, Option.elim, List.take_of_length_le (h k rfl)]

theorem places_root (n : Nat) (l : Label) :
    places nodes n [([], l)] = [] :: descendants nodes n [([], l)] := rfl

theorem mem_places_root (n : Nat) (l : Label) (a : Address) : a ∈ places nodes n [([], l)] <->
    ((unfolding nodes n 0 l).nodeAt? a).isSome = true := by
  rw [mem_places n 0]
  simp [Under]

namespace Agrees

theorem eq_unfolding (h : Agrees nodes (places nodes n [([], l)]) n 0 g ([], l)) :
    g = unfolding nodes n 0 l := by
  apply eq_of_nodeAt?
  intro a
  rw [h a]
  split
  · rfl
  · next hmem =>
    rw [List.nil_append, mem_places_root, Option.not_isSome_iff_eq_none] at hmem
    exact hmem.symm

theorem measured (h : Agrees nodes kept n 0 g ([], l)) : g.Measured := by
  intro a x hx
  rw [h a] at hx
  split at hx
  · rw [depth_of_unfolding hx, Nat.zero_add]
  · cases hx

end Agrees

/-- A label tree is the unfolding, or as much of it in breadth-first order as a bound allows.
Every node knows its distance from the root, and a walk from a node comes to those below it in
depth-first order. -/
theorem labelTree_breadthFirst (t : Trace) (l : Label) (depth maxNodes : Int)
    (hdecodes : forall m, Sources.Depends t.decode l m -> exists n, t.decode m = .ok n) :
    let u := unfolding t.decode depth.toNat 0 l
    exists found : List Address,
      found.Pairwise (List.Shortlex (· < ·)) ∧
      (forall a, a ∈ found <-> (u.nodeAt? a).isSome = true) ∧
      exists tree complete, (Lookup.labelTree l depth maxNodes).run t = .ok (tree, complete) ∧
        (maxNodes ≤ 0 ∨ found.length ≤ maxNodes -> tree = u ∧ complete = true) ∧
        (0 < maxNodes -> maxNodes < found.length -> complete = false ∧
          forall a, tree.nodeAt? a =
            if a ∈ found.take maxNodes.toNat then u.nodeAt? a else none) ∧
        forall a s, tree.subtree? a = some s -> s.depth = a.length ∧
          exists visited : List Address,
            visited.Pairwise (· < ·) ∧
            (forall b, b ∈ visited <-> (s.nodeAt? b).isSome = true) ∧
            List.Forall₂ (fun b v => s.nodeAt? b = some (v.label, v.depth) ∧
              v.walkDepth = b.length ∧ v.depth = a.length + b.length) visited s.walk := by
  intro u
  rcases labelTree_agrees hdecodes depth maxNodes with ⟨tree, complete, hrun, hcomplete, hagrees⟩
  refine ⟨places t.decode depth.toNat [([], l)], (isLevel_root l).places_sorted _,
    mem_places_root _ l, tree, complete, hrun, ?_, ?_, ?_⟩
  · intro hfits
    rw [places_root] at hfits
    have hroom := fits_roomFor_iff.mpr hfits
    rw [cons_upTo_of_fits hroom] at hagrees
    exact ⟨hagrees.eq_unfolding, hcomplete.mpr hroom⟩
  · intro hpositive hmore
    rw [cons_upTo_roomFor hpositive] at hagrees
    refine ⟨?_, hagrees⟩
    rw [← Bool.not_eq_true, hcomplete, fits_roomFor_iff, not_or]
    exact ⟨Int.not_le.mpr hpositive, Int.not_le.mpr hmore⟩
  · intro a s hs
    have hmeasured := hagrees.measured
    exact ⟨hmeasured.depth_eq hs, s.addresses, addresses_pairwise s, mem_addresses s,
      hmeasured.walk_meets hs⟩

/-- Around the circle of three labels there are twelve nodes down to depth three.  A bound of
five leaves out the third child of the first child. -/
theorem labelTree_breadthFirst_whirl :
    (forall m, Sources.Depends Sources.whirl.decode 5 m ->
      exists n, Sources.whirl.decode m = .ok n) ∧
    (Lookup.labelTree 5 3 12).run Sources.whirl =
      .ok (unfolding Sources.whirl.decode 3 0 5, true) ∧
    exists tree, (Lookup.labelTree 5 3 5).run Sources.whirl = .ok (tree, false) ∧
      tree.nodeAt? [0, 1] = some (2, 2) ∧ tree.nodeAt? [0, 2] = none ∧
      (unfolding Sources.whirl.decode 3 0 5).nodeAt? [0, 2] = some (3, 2) := by
  have hdecodes := (Sources.fault_eq_none_iff Sources.whirl.decode 5).mp rfl
  rcases labelTree_breadthFirst Sources.whirl 5 3 12 hdecodes with
    ⟨found, _, _, tree, complete, hrun, hall, hcut, _⟩
  have hcomplete : complete = true := by
    cases hrun
    rfl
  have hfits : (found.length : Int) ≤ 12 := by
    apply Int.not_lt.mp
    intro hmore
    have hfalse := (hcut (by decide) hmore).1
    rw [hcomplete] at hfalse
    cases hfalse
  rw [(hall (Or.inr hfits)).1, hcomplete] at hrun
  exact ⟨hdecodes, hrun, _, rfl, rfl, rfl, rfl⟩

end LabelTree
end TaintTrace
