import Mathlib
import TaintTrace.Flow.Unhindered
import TaintTrace.Proofs.LabelSet
import TaintTrace.Proofs.Node

/-!
# What a search for unhindered sources finds

The labels that a search has to deal with are those reachable from its start through
nodes that do not affect control flow.  One invariant ties the stack, the set of seen
labels and the sources found so far together; it is kept by every step and says at
the end that the new members of the set are exactly the reachable labels.
-/

namespace TaintTrace

namespace Unhindered

section

variable (nodes : Label -> Except InvalidLabel Node)

/-- A label leads to the labels that its node refers to, unless the node affects
control flow.  Sources refer to no labels. -/
def Leads (l c : Label) : Prop :=
  exists n, nodes l = .ok n ∧ n.controlFlow = false ∧ c ∈ n.children

/-- The least relation that holds between a label and itself, and goes on to all
labels that a reached label leads to. -/
def Reaches (root l : Label) : Prop :=
  Relation.ReflTransGen (Leads nodes) root l

/-- Whether a label has a source node that does not affect control flow. -/
def OpenSource (l : Label) : Prop :=
  exists n, nodes l = .ok n ∧ n.controlFlow = false ∧ n.isSource = true

/-- Nothing is left to do for the labels of a set: all of them have nodes, and the
set has all labels that they lead to. -/
structure Settled (seen : LabelSet) : Prop where
  decodes : forall m, seen.has m = true -> exists n, nodes m = .ok n
  closed : forall m c, seen.has m = true -> Leads nodes m c -> seen.has c = true

/-- The invariant of a search from `root` that began with the labels of `old`.  Labels
that are still to be visited are on the stack or in `pending`. -/
structure Progress (old : LabelSet) (root : Label) (pending : List Label)
    (s : Unhindered) : Prop where
  grown : forall m, old.has m = true -> s.seen.has m = true
  decodes : forall m, s.seen.has m = true -> exists n, nodes m = .ok n
  closed : forall m c, s.seen.has m = true -> Leads nodes m c ->
    s.seen.has c = true ∨ c ∈ pending ∨ c ∈ s.stack
  reached : forall m, s.seen.has m = true ∨ m ∈ pending ∨ m ∈ s.stack ->
    old.has m = true ∨ Reaches nodes root m
  rooted : s.seen.has root = true ∨ root ∈ pending ∨ root ∈ s.stack
  yields : forall m, m ∈ s.yielded <->
    s.seen.has m = true ∧ old.has m = false ∧ OpenSource nodes m
  nodup : s.yielded.Nodup

/-- A search from `root` that began with the labels of `old` met a label without
node. -/
def Stuck (old : LabelSet) (root : Label) (e : InvalidLabel) : Prop :=
  exists m, Reaches nodes root m ∧ old.has m = false ∧ nodes m = .error e

end

variable {nodes : Label -> Except InvalidLabel Node}

theorem not_leads_of_controlFlow {l c : Label} {n : Node} (hn : nodes l = .ok n)
    (hcf : n.controlFlow = true) : ¬ Leads nodes l c := by
  rintro ⟨n', hn', hcf', _⟩
  rw [hn] at hn'
  cases hn'
  rw [hcf] at hcf'
  cases hcf'

theorem not_leads_of_isSource {l c : Label} {n : Node} (hn : nodes l = .ok n)
    (hsource : n.isSource = true) : ¬ Leads nodes l c := by
  rintro ⟨n', hn', _, hc⟩
  rw [hn] at hn'
  cases hn'
  rw [Node.children_eq_nil hsource] at hc
  cases hc

theorem not_openSource {l : Label} {n : Node} (hn : nodes l = .ok n)
    (h : n.controlFlow = true ∨ n.isSource = false) : ¬ OpenSource nodes l := by
  rintro ⟨n', hn', hcf, hsource⟩
  rw [hn] at hn'
  cases hn'
  rcases h with h | h
  · rw [hcf] at h
    cases h
  · rw [hsource] at h
    cases h

theorem Settled.has_of_reaches {seen : LabelSet} (h : Settled nodes seen) {root l : Label}
    (hroot : seen.has root = true) (hl : Reaches nodes root l) : seen.has l = true := by
  induction hl with
  | refl => exact hroot
  | tail _ hstep ih => exact h.closed _ _ ih hstep

theorem settled_of_forall_not_has {seen : LabelSet} (h : forall l, seen.has l = false) :
    Settled nodes seen := by
  constructor
  · intro m hm
    rw [h m] at hm
    cases hm
  · intro m c hm
    rw [h m] at hm
    cases hm

/-!
## Steps

A label that is still to be visited either has been seen, is seen now, or goes to the
stack.
-/

namespace Progress

variable {old : LabelSet} {root : Label} {pending : List Label} {s : Unhindered}

theorem start (h : Settled nodes old) (root : Label) :
    Progress nodes old root [] ⟨[root], old, []⟩ where
  grown := fun _ hm => hm
  decodes := h.decodes
  closed := fun m c hm hc => Or.inl (h.closed m c hm hc)
  reached := by
    rintro m (hm | hm | hm)
    · exact Or.inl hm
    · cases hm
    · rw [List.mem_singleton] at hm
      rw [hm]
      exact Or.inr Relation.ReflTransGen.refl
  rooted := Or.inr (Or.inr (List.mem_singleton.mpr rfl))
  yields := by
    intro m
    constructor
    · intro hm
      cases hm
    · rintro ⟨hm, hold, _⟩
      rw [hm] at hold
      cases hold
  nodup := List.nodup_nil

theorem rearrange {pending' stack' : List Label} (h : Progress nodes old root pending s)
    (hkeep : forall m, m ∈ pending ∨ m ∈ s.stack ->
      s.seen.has m = true ∨ m ∈ pending' ∨ m ∈ stack')
    (hsub : forall m, m ∈ pending' ∨ m ∈ stack' -> m ∈ pending ∨ m ∈ s.stack) :
    Progress nodes old root pending' { s with stack := stack' } :=
  { h with
    closed := by
      intro m c hm hc
      rcases h.closed m c hm hc with hc | hc
      · exact Or.inl hc
      · exact hkeep c hc
    reached := by
      rintro m (hm | hm)
      · exact h.reached m (Or.inl hm)
      · exact h.reached m (Or.inr (hsub m hm))
    rooted := by
      rcases h.rooted with hroot | hroot
      · exact Or.inl hroot
      · exact hkeep root hroot }

theorem fresh {c : Label} (h : Progress nodes old root pending s)
    (hnew : s.seen.has c = false) (hc : c ∈ pending ∨ c ∈ s.stack) :
    old.has c = false ∧ Reaches nodes root c := by
  have hold : old.has c = false := by
    cases hc' : old.has c with
    | false => rfl
    | true =>
        rw [h.grown c hc'] at hnew
        cases hnew
  constructor
  · exact hold
  · rcases h.reached c (Or.inr hc) with hc' | hc'
    · rw [hold] at hc'
      cases hc'
    · exact hc'

/-- Seeing a new label.  All that was still to be visited has to stay so, except for
labels that are seen by now, and what the label leads to is to be visited as well. -/
theorem see {c : Label} {n : Node} {pending' stack' yielded' : List Label}
    (h : Progress nodes old root pending s) (hnew : s.seen.has c = false)
    (hn : nodes c = .ok n) (hc : c ∈ pending ∨ c ∈ s.stack)
    (hkeep : forall m, m ∈ pending ∨ m ∈ s.stack ->
      m = c ∨ s.seen.has m = true ∨ m ∈ pending' ∨ m ∈ stack')
    (hsub : forall m, m ∈ pending' ∨ m ∈ stack' ->
      Leads nodes c m ∨ m ∈ pending ∨ m ∈ s.stack)
    (hleads : forall d, Leads nodes c d -> d ∈ pending')
    (hyield : forall m, m ∈ yielded' <-> (m = c ∧ OpenSource nodes c) ∨ m ∈ s.yielded)
    (hnodup : yielded'.Nodup) :
    Progress nodes old root pending' ⟨stack', s.seen.insert c, yielded'⟩ := by
  rcases h.fresh hnew hc with ⟨hold, hreach⟩
  constructor
  · intro m hm
    exact LabelSet.has_insert_iff.mpr (Or.inr (h.grown m hm))
  · intro m hm
    rcases LabelSet.has_insert_iff.mp hm with rfl | hm
    · exact ⟨n, hn⟩
    · exact h.decodes m hm
  · intro m d hm hd
    rcases LabelSet.has_insert_iff.mp hm with rfl | hm
    · exact Or.inr (Or.inl (hleads d hd))
    · rcases h.closed m d hm hd with hd | hd
      · exact Or.inl (LabelSet.has_insert_iff.mpr (Or.inr hd))
      · rcases hkeep d hd with hd | hd | hd
        · exact Or.inl (LabelSet.has_insert_iff.mpr (Or.inl hd))
        · exact Or.inl (LabelSet.has_insert_iff.mpr (Or.inr hd))
        · exact Or.inr hd
  · rintro m (hm | hm)
    · rcases LabelSet.has_insert_iff.mp hm with rfl | hm
      · exact Or.inr hreach
      · exact h.reached m (Or.inl hm)
    · rcases hsub m hm with hm | hm
      · exact Or.inr (hreach.tail hm)
      · exact h.reached m (Or.inr hm)
  · rcases h.rooted with hroot | hroot
    · exact Or.inl (LabelSet.has_insert_iff.mpr (Or.inr hroot))
    · rcases hkeep root hroot with hroot | hroot | hroot
      · exact Or.inl (LabelSet.has_insert_iff.mpr (Or.inl hroot))
      · exact Or.inl (LabelSet.has_insert_iff.mpr (Or.inr hroot))
      · exact Or.inr hroot
  · intro m
    rw [hyield, h.yields, LabelSet.has_insert_iff]
    constructor
    · rintro (⟨rfl, hopen⟩ | ⟨hm, hrest⟩)
      · exact ⟨Or.inl rfl, hold, hopen⟩
      · exact ⟨Or.inr hm, hrest⟩
    · rintro ⟨rfl | hm, hrest⟩
      · exact Or.inl ⟨rfl, hrest.2⟩
      · exact Or.inr ⟨hm, hrest⟩
  · exact hnodup

/-- Seeing a pending label that leads nowhere: one that affects control flow, or a
source, which is yielded. -/
theorem seePending {c : Label} {n : Node} {yielded' : List Label}
    (h : Progress nodes old root (c :: pending) s) (hnew : s.seen.has c = false)
    (hn : nodes c = .ok n) (hleads : forall d, ¬ Leads nodes c d)
    (hyield : forall m, m ∈ yielded' <-> (m = c ∧ OpenSource nodes c) ∨ m ∈ s.yielded)
    (hnodup : yielded'.Nodup) :
    Progress nodes old root pending ⟨s.stack, s.seen.insert c, yielded'⟩ := by
  refine h.see hnew hn (Or.inl List.mem_cons_self) ?_ ?_ ?_ hyield hnodup
  · rintro m (hm | hm)
    · rcases List.mem_cons.mp hm with hm | hm
      · exact Or.inl hm
      · exact Or.inr (Or.inr (Or.inl hm))
    · exact Or.inr (Or.inr (Or.inr hm))
  · rintro m (hm | hm)
    · exact Or.inr (Or.inl (List.mem_cons_of_mem c hm))
    · exact Or.inr (Or.inr hm)
  · intro d hd
    exact absurd hd (hleads d)

theorem nodup_yield {c : Label} (h : Progress nodes old root pending s)
    (hnew : s.seen.has c = false) : (c :: s.yielded).Nodup := by
  refine List.nodup_cons.mpr ⟨?_, h.nodup⟩
  intro hc
  rw [((h.yields c).mp hc).1] at hnew
  cases hnew

theorem visitNode {c : Label} {n : Node} (h : Progress nodes old root (c :: pending) s)
    (hnew : s.seen.has c = false) (hn : nodes c = .ok n) :
    Progress nodes old root pending (s.visitNode c n) := by
  unfold Unhindered.visitNode
  split
  · rename_i hcf
    refine h.seePending hnew hn (fun d => not_leads_of_controlFlow hn hcf) ?_ h.nodup
    intro m
    simp [not_openSource hn (Or.inl hcf)]
  · rename_i hcf
    rw [Bool.not_eq_true] at hcf
    split
    · rename_i hsource
      refine h.seePending hnew hn (fun d => not_leads_of_isSource hn hsource) ?_
        (h.nodup_yield hnew)
      intro m
      have hopen : OpenSource nodes c := ⟨n, hn, hcf, hsource⟩
      simp [hopen]
    · refine h.rearrange ?_ ?_
      · rintro m (hm | hm)
        · rcases List.mem_cons.mp hm with rfl | hm
          · exact Or.inr (Or.inr List.mem_cons_self)
          · exact Or.inr (Or.inl hm)
        · exact Or.inr (Or.inr (List.mem_cons_of_mem c hm))
      · rintro m (hm | hm)
        · exact Or.inl (List.mem_cons_of_mem c hm)
        · rcases List.mem_cons.mp hm with rfl | hm
          · exact Or.inl List.mem_cons_self
          · exact Or.inr hm

/-- A label without node among those still to be visited stops the search. -/
theorem stuck {c : Label} {e : InvalidLabel} (h : Progress nodes old root pending s)
    (hnew : s.seen.has c = false) (hc : c ∈ pending ∨ c ∈ s.stack)
    (he : nodes c = .error e) : Stuck nodes old root e := by
  rcases h.fresh hnew hc with ⟨hold, hreach⟩
  exact ⟨c, hreach, hold, he⟩

end Progress

theorem has_visitNode {s : Unhindered} {c m : Label} {n : Node} (hm : s.seen.has m = true) :
    (s.visitNode c n).seen.has m = true := by
  unfold visitNode
  split
  · exact LabelSet.has_insert_iff.mpr (Or.inr hm)
  · split
    · exact LabelSet.has_insert_iff.mpr (Or.inr hm)
    · exact hm

theorem has_visitChildren (nodes : Label -> Except InvalidLabel Node) (n : Node)
    (remaining i : Nat) (s : Unhindered) (m : Label) (hm : s.seen.has m = true) :
    ((visitChildren n remaining i s).answer nodes).1.seen.has m = true := by
  induction remaining generalizing i s with
  | zero => exact hm
  | succ remaining ih =>
      rw [visitChildren]
      split
      · exact ih (i + 1) s hm
      · rw [Lookup.answer_decode]
        cases nodes (n.child i) with
        | error e => exact hm
        | ok child => exact ih (i + 1) _ (has_visitNode hm)

/-!
## Runs
-/

/-- How visiting children or a whole search ends: with the invariant, or on a label
without node. -/
def Ends (nodes : Label -> Except InvalidLabel Node) (old : LabelSet) (root : Label) :
    Unhindered × Option InvalidLabel -> Prop
  | (s, none) => Progress nodes old root [] s
  | (_, some e) => Stuck nodes old root e

variable {old : LabelSet} {root : Label}

theorem visitChildren_ends (n : Node) (remaining i : Nat) (s : Unhindered)
    (h : Progress nodes old root ((List.range' i remaining).map n.child) s) :
    Ends nodes old root ((visitChildren n remaining i s).answer nodes) := by
  induction remaining generalizing i s with
  | zero => exact h
  | succ remaining ih =>
      rw [List.range'_succ, List.map_cons] at h
      rw [visitChildren]
      split
      · rename_i hseen
        refine ih (i + 1) s (h.rearrange ?_ ?_)
        · rintro m (hm | hm)
          · rcases List.mem_cons.mp hm with rfl | hm
            · exact Or.inl hseen
            · exact Or.inr (Or.inl hm)
          · exact Or.inr (Or.inr hm)
        · rintro m (hm | hm)
          · exact Or.inl (List.mem_cons_of_mem _ hm)
          · exact Or.inr hm
      · rename_i hnew
        rw [Bool.not_eq_true] at hnew
        rw [Lookup.answer_decode]
        cases hc : nodes (n.child i) with
        | error e => exact h.stuck hnew (Or.inl List.mem_cons_self) hc
        | ok child => exact ih (i + 1) (s.visitNode (n.child i) child) (h.visitNode hnew hc)

theorem Progress.pop {s : Unhindered} {l : Label} {rest yielded' pending : List Label} {n : Node}
    (h : Progress nodes old root [] s) (hnext : s.seen.nextUnseen s.stack = some (l, rest))
    (hn : nodes l = .ok n) (hsub : forall m, m ∈ pending -> Leads nodes l m)
    (hleads : forall d, Leads nodes l d -> d ∈ pending)
    (hyield : forall m, m ∈ yielded' <-> (m = l ∧ OpenSource nodes l) ∨ m ∈ s.yielded)
    (hnodup : yielded'.Nodup) :
    Progress nodes old root pending ⟨rest, s.seen.insert l, yielded'⟩ := by
  rcases LabelSet.nextUnseen_eq_some hnext with ⟨front, hstack, hnew, hfront⟩
  have hmem : l ∈ s.stack := (LabelSet.mem_of_nextUnseen hnext).1
  refine h.see hnew hn (Or.inr hmem) ?_ ?_ hleads hyield hnodup
  · rintro m (hm | hm)
    · cases hm
    · rw [hstack] at hm
      rcases List.mem_append.mp hm with hm | hm
      · exact Or.inr (Or.inl (hfront m hm))
      · rcases List.mem_cons.mp hm with hm | hm
        · exact Or.inl hm
        · exact Or.inr (Or.inr (Or.inr hm))
  · rintro m (hm | hm)
    · exact Or.inl (hsub m hm)
    · rw [hstack]
      exact Or.inr (Or.inr (List.mem_append_right front (List.mem_cons_of_mem l hm)))

theorem Progress.popLeaf {s : Unhindered} {l : Label} {rest yielded' : List Label} {n : Node}
    (h : Progress nodes old root [] s) (hnext : s.seen.nextUnseen s.stack = some (l, rest))
    (hn : nodes l = .ok n) (hleads : forall d, ¬ Leads nodes l d)
    (hyield : forall m, m ∈ yielded' <-> (m = l ∧ OpenSource nodes l) ∨ m ∈ s.yielded)
    (hnodup : yielded'.Nodup) :
    Progress nodes old root [] ⟨rest, s.seen.insert l, yielded'⟩ := by
  refine h.pop hnext hn ?_ ?_ hyield hnodup
  · intro m hm
    cases hm
  · intro d hd
    exact absurd hd (hleads d)

theorem Progress.popInner {s : Unhindered} {l : Label} {rest : List Label} {n : Node}
    (h : Progress nodes old root [] s) (hnext : s.seen.nextUnseen s.stack = some (l, rest))
    (hn : nodes l = .ok n) (hcf : n.controlFlow = false) (hsource : n.isSource = false) :
    Progress nodes old root n.children ⟨rest, s.seen.insert l, s.yielded⟩ := by
  refine h.pop hnext hn (fun m hm => ⟨n, hn, hcf, hm⟩) ?_ ?_ h.nodup
  · intro d hd
    rcases hd with ⟨n', hn', _, hd⟩
    rw [hn] at hn'
    cases hn'
    exact hd
  · intro m
    simp [not_openSource hn (Or.inr hsource)]

def Exhausted (s : Unhindered) : Prop :=
  forall m, m ∈ s.stack -> s.seen.has m = true

-- The fuel covers the labels that are not seen yet, and each round sees at least one of them.
theorem search_ends (fuel : Nat) (s : Unhindered) (hfuel : s.seen.unseen.card ≤ fuel)
    (h : Progress nodes old root [] s) :
    Ends nodes old root ((search fuel s).answer nodes) ∧
      (((search fuel s).answer nodes).2 = none ->
        ((search fuel s).answer nodes).1.Exhausted) := by
  induction fuel generalizing s with
  | zero =>
      refine ⟨h, ?_⟩
      intro _ m _
      exact LabelSet.has_of_card_unseen_eq_zero (Nat.le_zero.mp hfuel) m
  | succ fuel ih =>
      rw [search]
      cases hnext : s.seen.nextUnseen s.stack with
      | none =>
          refine ⟨h.rearrange ?_ ?_, ?_⟩
          · rintro m (hm | hm)
            · cases hm
            · exact Or.inl (LabelSet.nextUnseen_eq_none hnext m hm)
          · rintro m (hm | hm) <;> cases hm
          · intro _ m hm
            cases hm
      | some found =>
          rcases found with ⟨l, rest⟩
          rcases LabelSet.mem_of_nextUnseen hnext with ⟨hmem, hnew⟩
          have hless : (s.seen.insert l).unseen.card ≤ fuel :=
            Nat.le_of_lt_succ (Nat.lt_of_lt_of_le (LabelSet.card_unseen_insert hnew) hfuel)
          dsimp only
          rw [Lookup.answer_decode]
          cases hn : nodes l with
          | error e =>
              refine ⟨h.stuck hnew (Or.inr hmem) hn, ?_⟩
              intro hnone
              cases hnone
          | ok n =>
              dsimp only
              split
              · rename_i hcf
                refine ih _ hless (h.popLeaf hnext hn ?_ ?_ h.nodup)
                · intro d
                  exact not_leads_of_controlFlow hn hcf
                · intro m
                  simp [not_openSource hn (Or.inl hcf)]
              · rename_i hcf
                rw [Bool.not_eq_true] at hcf
                split
                · rename_i hsource
                  refine ih _ hless (h.popLeaf hnext hn ?_ ?_ (h.nodup_yield hnew))
                  · intro d
                    exact not_leads_of_isSource hn hsource
                  · intro m
                    have hopen : OpenSource nodes l := ⟨n, hn, hcf, hsource⟩
                    simp [hopen]
                · rename_i hsource
                  rw [Bool.not_eq_true] at hsource
                  have hopened := h.popInner hnext hn hcf hsource
                  rw [Node.children_eq] at hopened
                  have hvisit := visitChildren_ends n n.childCount 0 _ hopened
                  have hgrown := LabelSet.card_unseen_mono
                    (has_visitChildren nodes n n.childCount 0 ⟨rest, s.seen.insert l, s.yielded⟩)
                  rw [Lookup.answer_bind]
                  rcases hresult : (visitChildren n n.childCount 0
                      ⟨rest, s.seen.insert l, s.yielded⟩).answer nodes with ⟨s', e?⟩
                  rw [hresult] at hvisit hgrown
                  cases e? with
                  | none => exact ih s' (Nat.le_trans hgrown hless) hvisit
                  | some e =>
                      refine ⟨hvisit, ?_⟩
                      intro hnone
                      cases hnone

/-!
## Answers
-/

/-- What a search from `root` finds when nothing is left to do for the labels of
`old`. -/
structure Complete (nodes : Label -> Except InvalidLabel Node) (old : LabelSet) (root : Label)
    (found : UnhinderedSources) : Prop where
  settled : Settled nodes found.seen
  seen : forall m, found.seen.has m = true <-> old.has m = true ∨ Reaches nodes root m
  yields : forall m, m ∈ found.yielded <->
    old.has m = false ∧ Reaches nodes root m ∧ OpenSource nodes m
  nodup : found.yielded.Nodup

theorem Progress.settled {s : Unhindered} (h : Progress nodes old root [] s)
    (hend : s.Exhausted) : Settled nodes s.seen := by
  constructor
  · exact h.decodes
  · intro m c hm hc
    rcases h.closed m c hm hc with hc | hc | hc
    · exact hc
    · cases hc
    · exact hend c hc

theorem Progress.complete {s : Unhindered} (h : Progress nodes old root [] s)
    (hend : s.Exhausted) : Complete nodes old root ⟨s.yielded.reverse, s.seen, none⟩ := by
  have hsettled := h.settled hend
  have hroot : s.seen.has root = true := by
    rcases h.rooted with hroot | hroot | hroot
    · exact hroot
    · cases hroot
    · exact hend root hroot
  have hseen : forall m, s.seen.has m = true <-> old.has m = true ∨ Reaches nodes root m := by
    intro m
    constructor
    · intro hm
      exact h.reached m (Or.inl hm)
    · rintro (hm | hm)
      · exact h.grown m hm
      · exact hsettled.has_of_reaches hroot hm
  refine ⟨hsettled, hseen, ?_, List.nodup_reverse.mpr h.nodup⟩
  intro m
  rw [List.mem_reverse, h.yields, hseen]
  constructor
  · rintro ⟨hm | hm, hold, hopen⟩
    · rw [hm] at hold
      cases hold
    · exact ⟨hold, hm, hopen⟩
  · rintro ⟨hold, hm, hopen⟩
    exact ⟨Or.inr hm, hold, hopen⟩

/-- A search either finds all there is to find, or it fails on a label without node
that it had to deal with. -/
theorem unhinderedSources_cases (hold : Settled nodes old) (root : Label) :
    (((Lookup.unhinderedSources root old).answer nodes).fault = none ∧
      Complete nodes old root ((Lookup.unhinderedSources root old).answer nodes)) ∨
    exists e, ((Lookup.unhinderedSources root old).answer nodes).fault =
        some (.within (.searching root) (.invalidLabel e)) ∧
      Stuck nodes old root e := by
  have hsearch := search_ends Label.total ⟨[root], old, []⟩ (LabelSet.card_unseen_le old)
    (Progress.start hold root)
  rw [Lookup.unhinderedSources, Lookup.answer_bind]
  rcases hresult : (search Label.total ⟨[root], old, []⟩).answer nodes with ⟨s, e?⟩
  rw [hresult] at hsearch
  cases e? with
  | none => exact Or.inl ⟨rfl, hsearch.1.complete (hsearch.2 rfl)⟩
  | some e => exact Or.inr ⟨e, rfl, hsearch.1⟩

/-- After a search that found all, no search from the same label fails, whatever set it
begins with. -/
theorem Complete.not_stuck {found : UnhinderedSources} (h : Complete nodes old root found)
    (old' : LabelSet) (e : InvalidLabel) : ¬ Stuck nodes old' root e := by
  rintro ⟨m, hm, _, he⟩
  rcases h.settled.decodes m ((h.seen m).mpr (Or.inr hm)) with ⟨n, hn⟩
  rw [hn] at he
  cases he

end Unhindered
end TaintTrace
