import Mathlib
import TaintTrace.Proofs.Growth
import TaintTrace.Proofs.Node

/-!
# Consistent recordings

Nodes that are added by checked operations refer to earlier labels only, and the labels that
were set aside for a file keep the bytes of that file.  Without sources of their own, the
labels set aside are all the sources there are.
-/

namespace TaintTrace
namespace Recording

variable {r s : Recording} {op : Operation} {ops : List Operation}

theorem getElem?_origins {k : Nat} {o : Origin} :
    r.origins[k]? = some o <-> exists n, r.nodes[k]? = some n ∧ n.origin = o := by
  rw [origins, List.getElem?_map, Option.map_eq_some_iff]

theorem Grown.origin_cases (h : Grown op r s) {k : Nat} {o : Origin}
    (ho : s.origins[k]? = some o) :
    r.origins[k]? = some o ∨
      r.words.size ≤ k ∧ exists n, (op.nodes r)[k - r.words.size]? = some n ∧ n.origin = o := by
  rw [h.origins, List.getElem?_append, length_origins] at ho
  split at ho
  · exact Or.inl ho
  · rename_i hk
    rw [List.getElem?_map, Option.map_eq_some_iff] at ho
    exact Or.inr ⟨Nat.not_lt.mp hk, ho⟩

theorem Grown.origin_kept (h : Grown op r s) {k : Nat} {o : Origin}
    (ho : r.origins[k]? = some o) : s.origins[k]? = some o := by
  rw [h.origins, List.getElem?_append_left (List.getElem?_eq_some_iff.mp ho).fst]
  exact ho

theorem Grown.size_eq (h : Grown op r s) :
    s.words.size = r.words.size + (op.nodes r).length := by
  rw [← length_origins, h.origins, List.length_append, length_origins, List.length_map]

theorem Grown.header_cases (h : Grown op r s) {i : Nat} {header : Header}
    (hi : s.headers.toList[i]? = some header) :
    r.headers.toList[i]? = some header ∨
      i = r.headers.size ∧ op.headers r = [header] := by
  rw [h.headers, List.getElem?_append, Array.length_toList] at hi
  split at hi
  · exact Or.inl hi
  · rename_i hsize
    have hone : (op.headers r).length ≤ 1 := by
      cases op <;> simp [Operation.headers]
    rcases List.getElem?_eq_some_iff.mp hi with ⟨hlt, hget⟩
    rcases List.length_eq_one_iff.mp (show (op.headers r).length = 1 by omega) with ⟨added, hadded⟩
    refine Or.inr ⟨by omega, ?_⟩
    rw [hadded, List.getElem?_singleton] at hi
    rw [hadded]
    split at hi
    · rw [Option.some.inj hi]
    · cases hi

/-!
## Children
-/

namespace Operation

/-- The operations that look at the labels they are given. -/
def Checked : Operation -> Prop
  | .node _ => False
  | _ => True

/-- The operations that add sources only with a file. -/
def Filed : Operation -> Prop
  | .node _ => False
  | .source _ _ => False
  | _ => True

theorem Filed.checked (h : op.Filed) : op.Checked := by
  cases op with
  | node n => exact h
  | _ => trivial

end Operation

theorem Grown.has_child (h : Grown op r s) (hchecked : op.Checked) {n : Node}
    (hn : n ∈ op.nodes r) {c : Label} (hc : c ∈ n.children) : r.Has c := by
  have hallowed := h.allowed
  cases op with
  | file name size =>
      rcases List.mem_map.mp hn with ⟨o, _, rfl⟩
      cases hc
  | source file offset =>
      cases List.mem_singleton.mp hn
      cases hc
  | union left right =>
      cases List.mem_singleton.mp hn
      rw [NodeWord.mem_children_stored_iff, Node.children_union, List.mem_pair] at hc
      cases hc with
      | inl hleft => exact hleft ▸ hallowed.1
      | inr hright => exact hright ▸ hallowed.2
  | range first last =>
      cases List.mem_singleton.mp hn
      rw [Node.mem_children_range] at hc
      have hfirst := hallowed.1.1
      have hlast := hallowed.2.2
      exact ⟨by omega, by omega⟩
  | node n => cases hchecked
  | _ => cases hn

/-- All nodes but that of label zero refer to earlier labels. -/
def Earlier (r : Recording) : Prop :=
  forall k n, 0 < k -> r.nodes[k]? = some n ->
    forall c, c ∈ n.children -> 0 < c.toNat ∧ c.toNat < k

theorem earlier_empty : Earlier empty := by
  intro k n hk hn
  have hlength := (List.getElem?_eq_some_iff.mp hn).fst
  rw [length_nodes] at hlength
  exact absurd hlength (Nat.not_lt.mpr hk)

theorem Earlier.grow (hr : Earlier r) (h : Grown op r s) (hchecked : op.Checked) :
    Earlier s := by
  intro k n hk hn c hc
  rcases h.origin_cases (getElem?_origins.mpr ⟨n, hn, rfl⟩) with hold | ⟨hsize, m, hm, horigin⟩
  · -- The node may have been marked since, but it has the origin that it had.
    rcases getElem?_origins.mp hold with ⟨m, hm, horigin⟩
    refine hr k m hk hm c ?_
    rw [Node.children_congr horigin]
    exact hc
  · have hhas : r.Has c := by
      refine h.has_child hchecked (List.mem_of_getElem? hm) ?_
      rw [Node.children_congr horigin]
      exact hc
    exact ⟨hhas.1, hhas.2.trans_le hsize⟩

theorem earlier_performAll (hchecked : forall op, op ∈ ops -> op.Checked)
    (h : empty.performAll ops = .ok s) : Earlier s :=
  performAll_induction (fun op _ _ hop _ _ hgrown hr => hr.grow hgrown (hchecked op hop))
    bounded_empty earlier_empty h

/-!
## Files
-/

/-- The labels from the first to the last one of a header are the bytes of its file. -/
structure Allotted (r : Recording) (i : Nat) (h : Header) : Prop where
  file : i < maxFiles
  positive : 0 < h.labelBegin.toNat
  ordered : h.labelBegin.toNat ≤ h.labelEnd.toNat
  inside : h.labelEnd.toNat ≤ r.words.size
  bytes : forall o, o < h.length ->
    r.origins[h.labelBegin.toNat + o]? = some (.source (UInt8.ofNat i) (UInt64.ofNat o))

theorem Allotted.grow {i : Nat} {header : Header} (hr : Allotted r i header) (h : Grown op r s) :
    Allotted s i header where
  file := hr.file
  positive := hr.positive
  ordered := hr.ordered
  inside := by
    rw [h.size_eq]
    exact hr.inside.trans (Nat.le_add_right _ _)
  bytes := fun o ho => h.origin_kept (hr.bytes o ho)

theorem Grown.labels_file {name : Text} {size : Int} (hr : Bounded r) (hs : Bounded s)
    (h : Grown (.file name size) r s) :
    (r.fileHeader name size).labelBegin.toNat = r.words.size ∧
      (r.fileHeader name size).labelEnd.toNat = r.words.size + size.toNat ∧
      (r.fileHeader name size).length = size.toNat := by
  have hfits := hs.fits
  rw [h.size_eq, Operation.nodes, List.length_map, List.length_range] at hfits
  have hend : (UInt32.ofNat (r.words.size + size.toNat)).toNat = r.words.size + size.toNat := by
    refine UInt32.toNat_ofNat_of_lt' ?_
    simp only [NodeWord.labelSpan, Label.max] at hfits
    change _ < 4294967296
    omega
  refine ⟨hr.nextLabel_toNat, hend, ?_⟩
  unfold Header.length fileHeader
  dsimp only
  rw [hr.nextLabel_toNat, hend, Nat.add_sub_cancel_left]

theorem Grown.allotted {header : Header} (hr : Bounded r) (hs : Bounded s) (h : Grown op r s)
    (hheader : op.headers r = [header]) : Allotted s r.headers.size header := by
  have hallowed := h.allowed
  cases op with
  | file name size =>
      cases List.singleton_inj.mp hheader
      rcases h.labels_file hr hs with ⟨hbegin, hend, hlength⟩
      have hsize := h.size_eq
      rw [Operation.nodes, List.length_map, List.length_range] at hsize
      refine ⟨hallowed, by rw [hbegin]; exact hr.size_pos, by omega, by omega, ?_⟩
      intro o ho
      rw [hlength] at ho
      rw [h.origins, hbegin, ← length_origins, List.getElem?_append_right (Nat.le_add_right _ _),
        Nat.add_sub_cancel_left, Operation.nodes, List.map_map, List.getElem?_map,
        List.getElem?_range ho]
      rfl
  | output name =>
      cases List.singleton_inj.mp hheader
      refine ⟨hallowed, ?_, le_rfl, ?_, ?_⟩
      · rw [hr.nextLabel_toNat]
        exact hr.size_pos
      · rw [hr.nextLabel_toNat, h.size_eq]
        exact Nat.le_add_right _ _
      · intro o ho
        unfold Header.length at ho
        dsimp only at ho
        omega
  | _ => cases hheader

theorem allotted_performAll (h : empty.performAll ops = .ok s) :
    forall i header, s.headers.toList[i]? = some header -> Allotted s i header := by
  refine performAll_induction (P := fun r => forall i header,
    r.headers.toList[i]? = some header -> Allotted r i header) ?_ bounded_empty ?_ h
  · intro op r s _ hr hs hgrown hall i header hi
    rcases hgrown.header_cases hi with hold | ⟨rfl, hadded⟩
    · exact (hall i header hold).grow hgrown
    · exact hgrown.allotted hr hs hadded
  · intro i header hi
    cases hi

/-!
## Sources
-/

/-- All sources are labels that were set aside for the bytes of files. -/
def Filed (r : Recording) : Prop :=
  forall (k : Nat) (file : UInt8) (offset : UInt64), r.origins[k]? = some (.source file offset) ->
    exists h : Header, r.headers.toList[file.toNat]? = some h ∧ offset.toNat < h.length ∧
      k = h.labelBegin.toNat + offset.toNat

theorem filed_empty : Filed empty := by
  intro k file offset hk
  cases k with
  | zero => cases hk
  | succ k => cases hk

theorem stored_union_ne_source (left right : Label) (file : UInt8) (offset : UInt64) :
    NodeWord.stored (.union left right) ≠ .source file offset := by
  rw [NodeWord.stored]
  split
  · simp
  · split
    · simp
    · simp

theorem Grown.filed_file {name : Text} {size : Int} {k : Nat} {file : UInt8} {offset : UInt64}
    {n : Node} (hr : Bounded r) (hs : Bounded s) (h : Grown (.file name size) r s)
    (hk : r.words.size ≤ k)
    (hn : (Operation.nodes r (.file name size))[k - r.words.size]? = some n)
    (hsource : n.origin = .source file offset) :
    exists h : Header, s.headers.toList[file.toNat]? = some h ∧ offset.toNat < h.length ∧
      k = h.labelBegin.toNat + offset.toNat := by
  have hfiles : r.headers.size < 256 := h.allowed
  have hfits := hs.fits
  rw [h.size_eq, Operation.nodes, List.length_map, List.length_range] at hfits
  simp only [NodeWord.labelSpan, Label.max] at hfits
  rcases h.labels_file hr hs with ⟨hbegin, _, hlength⟩
  rw [Operation.nodes, List.getElem?_map, Option.map_eq_some_iff] at hn
  rcases hn with ⟨o, ho, rfl⟩
  rcases List.getElem?_eq_some_iff.mp ho with ⟨hlt, hget⟩
  rw [List.length_range] at hlt
  rw [List.getElem_range] at hget
  cases hsource
  -- No index is cut off, since the header was not refused.
  have hfile : (UInt8.ofNat r.headers.size).toNat = r.headers.size :=
    UInt8.toNat_ofNat_of_lt' hfiles
  have hoffset : (UInt64.ofNat o).toNat = o := by
    refine UInt64.toNat_ofNat_of_lt' ?_
    change _ < 18446744073709551616
    omega
  refine ⟨r.fileHeader name size, ?_, ?_, ?_⟩
  · rw [hfile, h.headers, ← Array.length_toList, List.getElem?_append_right le_rfl, Nat.sub_self]
    rfl
  · rw [hoffset, hlength]
    omega
  · rw [hoffset, hbegin]
    omega

theorem Filed.grow (hfiled : Filed r) (hr : Bounded r) (hs : Bounded s) (h : Grown op r s)
    (hop : op.Filed) : Filed s := by
  intro k file offset hk
  rcases h.origin_cases hk with hold | ⟨hsize, n, hn, hsource⟩
  · rcases hfiled k file offset hold with ⟨header, hheader, hplace⟩
    refine ⟨header, ?_, hplace⟩
    rw [h.headers, List.getElem?_append_left (List.getElem?_eq_some_iff.mp hheader).fst]
    exact hheader
  · cases op with
    | file name size => exact h.filed_file hr hs hsize hn hsource
    | union left right =>
        cases List.mem_singleton.mp (List.mem_of_getElem? hn)
        exact absurd hsource (stored_union_ne_source left right file offset)
    | range first last =>
        cases List.mem_singleton.mp (List.mem_of_getElem? hn)
        cases hsource
    | node n => cases hop
    | source file offset => cases hop
    | _ => cases hn

theorem filed_performAll (hops : forall op, op ∈ ops -> op.Filed)
    (h : empty.performAll ops = .ok s) : Filed s :=
  performAll_induction
    (fun op _ _ hop hr hs hgrown hfiled => hfiled.grow hr hs hgrown (hops op hop))
    bounded_empty filed_empty h

end Recording
end TaintTrace
