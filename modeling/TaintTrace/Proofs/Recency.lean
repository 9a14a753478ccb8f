import Mathlib
import TaintTrace.Flow.ByteMap
import TaintTrace.Flow.Cavity
import TaintTrace.Proofs.Cache
import TaintTrace.Trace.Ancestry
import TaintTrace.Trace.Image.Writing
import TaintTrace.Trace.Validity

/-!
# What a cache keeps

Labels that were decoded with success can be listed by the time they were decoded last.  A
cache holds the front of that list, as much of it as it has room for: a label that is found
moves to the front, and a label that is not found comes in there, whether it is new to the
list or was behind what the cache holds.  So the size of a cache can be told from the labels
alone, and none of it shows in the answers.
-/

namespace TaintTrace

namespace Cache

variable {nodes : Label -> Except InvalidLabel Node} {recent : List Label} {c : Cache}

/-!
## Recent labels
-/

/-- Labels by the time they were decoded last, after one more label was decoded. -/
def touch (nodes : Label -> Except InvalidLabel Node) (recent : List Label) (l : Label) :
    List Label :=
  if (nodes l).isOk then l :: recent.erase l else recent

theorem nodup_touch (h : recent.Nodup) (l : Label) : (touch nodes recent l).Nodup := by
  unfold touch
  split
  · exact List.nodup_cons.mpr ⟨h.not_mem_erase, h.erase l⟩
  · exact h

theorem mem_touch {l m : Label} :
    m ∈ touch nodes recent l <-> (m = l ∧ (nodes m).isOk = true) ∨ m ∈ recent := by
  unfold touch
  by_cases hml : m = l
  · subst hml
    by_cases hok : (nodes m).isOk = true
    · simp [hok]
    · simp [hok]
  · split
    · simp [hml, List.mem_erase_of_ne hml]
    · simp [hml]

theorem nodup_foldl_touch (ls : List Label) (h : recent.Nodup) :
    (ls.foldl (touch nodes) recent).Nodup := by
  induction ls generalizing recent with
  | nil => exact h
  | cons l ls ih => exact ih (nodup_touch h l)

theorem mem_foldl_touch (ls : List Label) {m : Label} :
    m ∈ ls.foldl (touch nodes) recent <->
      (m ∈ ls ∧ (nodes m).isOk = true) ∨ m ∈ recent := by
  induction ls generalizing recent with
  | nil => simp
  | cons l ls ih =>
      rw [List.foldl_cons, ih, mem_touch, List.mem_cons, or_and_right, or_assoc, or_left_comm]

theorem length_foldl_touch (ls : List Label) :
    (ls.foldl (touch nodes) []).length =
      (ls.filter fun l => (nodes l).isOk).toFinset.card := by
  have hsame : (ls.foldl (touch nodes) []).toFinset =
      (ls.filter fun l => (nodes l).isOk).toFinset := by
    ext m
    simp [mem_foldl_touch]
  rw [← hsame, List.toFinset_card_of_nodup (nodup_foldl_touch ls List.nodup_nil)]

/-!
## The front of a list

What is erased from a list is missed in its front only if it was there.
-/

theorem take_erase_of_mem {l : Label} {ls : List Label} {n : Nat} (h : l ∈ ls.take (n + 1)) :
    (ls.erase l).take n = (ls.take (n + 1)).erase l := by
  induction ls generalizing n with
  | nil => cases h
  | cons a ls ih =>
      by_cases ha : a = l
      · simp [ha]
      · rw [List.take_succ_cons] at h ⊢
        rcases List.mem_cons.mp h with heq | hmem
        · exact absurd heq.symm ha
        · cases n with
          | zero => cases hmem
          | succ n =>
              rw [List.erase_cons_tail (by simpa using ha), List.take_succ_cons,
                List.erase_cons_tail (by simpa using ha), ih hmem]

theorem take_erase_of_not_mem {l : Label} {ls : List Label} {n : Nat} (h : l ∉ ls.take n) :
    (ls.erase l).take n = ls.take n := by
  induction ls generalizing n with
  | nil => rfl
  | cons a ls ih =>
      cases n with
      | zero => rfl
      | succ n =>
          rw [List.take_succ_cons, List.mem_cons, not_or] at h
          rw [List.erase_cons_tail (by simpa using Ne.symm h.1), List.take_succ_cons,
            List.take_succ_cons, ih h.2]

/-!
## Steps and runs
-/

/-- A cache with the nodes of the most recent labels. -/
structure Keeps (nodes : Label -> Except InvalidLabel Node) (recent : List Label) (c : Cache) :
    Prop where
  sound : c.Sound nodes
  labels : c.entries.map Prod.fst = recent.take c.capacity
  room : 0 < c.capacity

variable {l : Label} {n : Node}

/-- A label that is found was in the front of the list, and moves to its head. -/
theorem Keeps.refresh (h : c.Keeps nodes recent) (hl : l ∈ c.entries.map Prod.fst)
    (hn : nodes l = .ok n) : (c.refresh l n).Keeps nodes (touch nodes recent l) where
  sound := h.sound.refresh hn
  labels := by
    have hroom : c.capacity = (c.capacity - 1) + 1 := by
      have hpos := h.room
      omega
    rw [h.labels, hroom] at hl
    have herased : (c.entries.eraseP (·.1 == l)).map Prod.fst =
        (c.entries.map Prod.fst).erase l := by
      rw [List.erase_eq_eraseP', List.eraseP_map]
      rfl
    show l :: (c.entries.eraseP (·.1 == l)).map Prod.fst =
      (touch nodes recent l).take c.capacity
    rw [herased, h.labels, touch, hn, hroom]
    exact congrArg (List.cons l) (take_erase_of_mem hl).symm
  room := h.room

/-- A label that is not found may stand in the list, but only behind what the cache holds. -/
theorem Keeps.add (h : c.Keeps nodes recent) (hl : l ∉ c.entries.map Prod.fst)
    (hn : nodes l = .ok n) : (c.add l n).Keeps nodes (touch nodes recent l) where
  sound := h.sound.add hn
  labels := by
    have hroom : c.capacity = (c.capacity - 1) + 1 := by
      have hpos := h.room
      omega
    have hbehind : l ∉ recent.take (c.capacity - 1) := by
      intro hmem
      apply hl
      rw [h.labels]
      exact List.take_subset_take_left recent (Nat.sub_le _ _) hmem
    show (((l, n) :: c.entries).take c.capacity).map Prod.fst =
      (touch nodes recent l).take c.capacity
    rw [List.map_take, List.map_cons, h.labels, touch, hn, hroom]
    show l :: (recent.take (c.capacity - 1 + 1)).take (c.capacity - 1) =
      l :: (recent.erase l).take (c.capacity - 1)
    rw [List.take_take, Nat.min_eq_left (Nat.le_succ _), take_erase_of_not_mem hbehind]
  room := h.room

theorem Keeps.decode (h : c.Keeps nodes recent) (l : Label) :
    (c.decode nodes l).2.Keeps nodes (touch nodes recent l) ∧
      (c.decode nodes l).2.capacity = c.capacity := by
  unfold Cache.decode
  cases hfind : c.entries.find? (·.1 == l) with
  | some entry =>
      rcases entry with ⟨m, n⟩
      have hm : m = l := by simpa using List.find?_some hfind
      subst hm
      have hmem : (m, n) ∈ c.entries := List.mem_of_find?_eq_some hfind
      exact ⟨h.refresh (List.mem_map.mpr ⟨_, hmem, rfl⟩) (h.sound m n hmem), rfl⟩
  | none =>
      have hl : l ∉ c.entries.map Prod.fst := by
        intro hmem
        rcases List.mem_map.mp hmem with ⟨entry, hentry, heq⟩
        exact List.find?_eq_none.mp hfind entry hentry (by simpa using heq)
      cases hn : nodes l with
      | error e =>
          have hsame : touch nodes recent l = recent := by
            rw [touch, hn]
            rfl
          rw [hsame]
          exact ⟨h, rfl⟩
      | ok n => exact ⟨h.add hl hn, rfl⟩

theorem create?_keeps (nodes : Label -> Except InvalidLabel Node) {size : Int} (h : 1 ≤ size) :
    exists c, create? size = some c ∧ c.Keeps nodes [] ∧ c.capacity = size.toNat := by
  refine ⟨⟨size.toNat, []⟩, ?_, ⟨?_, ?_, ?_⟩, rfl⟩
  · rw [create?, if_neg (by omega)]
  · intro l n hmem
    cases hmem
  · exact List.take_nil.symm
  · show 0 < size.toNat
    omega

end Cache

namespace TraceReader

def decodeAll (r : TraceReader) : List Label -> List (Except InvalidLabel Node) × TraceReader
  | [] => ([], r)
  | l :: ls =>
      let (answer, r) := r.decode l
      let (answers, r) := r.decodeAll ls
      (answer :: answers, r)

theorem decodeAll_cached {t : Trace} {recent : List Label} {c : Cache} (ls : List Label)
    (h : c.Keeps t.decode recent) :
    (decodeAll ⟨t, some c⟩ ls).1 = ls.map t.decode ∧
      exists c', (decodeAll ⟨t, some c⟩ ls).2 = ⟨t, some c'⟩ ∧
        c'.Keeps t.decode (ls.foldl (Cache.touch t.decode) recent) ∧ c'.capacity = c.capacity := by
  induction ls generalizing c recent with
  | nil => exact ⟨rfl, c, rfl, h, rfl⟩
  | cons l ls ih =>
      rcases h.decode l with ⟨hkeeps, hcapacity⟩
      rcases ih hkeeps with ⟨hanswers, c', hreader, hkeeps', hcapacity'⟩
      refine ⟨?_, c', hreader, hkeeps', hcapacity'.trans hcapacity⟩
      rw [List.map_cons, ← (h.sound.decode l).1, ← hanswers]
      rfl

/-- Decoding through a cache of any size gives what the trace gives, label by label, and the
cache then holds the labels that have nodes, as many of them as there is room for.  Whatever was
decoded before, all analyses have the answers that they have without the cache. -/
theorem cached_answers (t : Trace) (size : Int) (hsize : 1 ≤ size) (ls : List Label) :
    exists c c', Cache.create? size = some c ∧
      (decodeAll ⟨t, some c⟩ ls) = (ls.map t.decode, ⟨t, some c'⟩) ∧
      c'.size = min size.toNat (ls.filter fun l => (t.decode l).isOk).toFinset.card ∧
      (forall l, (run (Lookup.sources l) ⟨t, some c'⟩).1 = (Lookup.sources l).run t) ∧
      (forall l seen, (run (Lookup.unhinderedSources l seen) ⟨t, some c'⟩).1 =
        (Lookup.unhinderedSources l seen).run t) ∧
      (forall l limit, (run (Lookup.ancestry l limit) ⟨t, some c'⟩).1 =
        (Lookup.ancestry l limit).run t) ∧
      (forall interval, (run (t.byteMap interval) ⟨t, some c'⟩).1 = (t.byteMap interval).run t) ∧
      (forall options h, (run (Cavities.ofHeader t options h) ⟨t, some c'⟩).1 =
        (Cavities.ofHeader t options h).run t) ∧
      (forall limit, (run (t.problems limit) ⟨t, some c'⟩).1 = (t.problems limit).run t) ∧
      forall output, (run (Image.writeTo t output) ⟨t, some c'⟩).1 =
        (Image.writeTo t output).run t := by
  rcases Cache.create?_keeps t.decode hsize with ⟨c, hcreate, hkeeps, hcapacity⟩
  rcases decodeAll_cached ls hkeeps with ⟨hanswers, c', hreader, hkeeps', hcapacity'⟩
  have hlength : c'.size = min size.toNat
      (ls.filter fun l => (t.decode l).isOk).toFinset.card := by
    have hlabels := congrArg List.length hkeeps'.labels
    rw [List.length_map, List.length_take, Cache.length_foldl_touch, hcapacity', hcapacity]
      at hlabels
    exact hlabels
  have hsound : Sound ⟨t, some c'⟩ := by
    intro cache hcache
    cases hcache
    exact hkeeps'.sound
  have hsame {α : Type} (p : Lookup α) : (run p ⟨t, some c'⟩).1 = p.run t := (hsound.run p).1
  exact ⟨c, c', hcreate, Prod.ext hanswers hreader, hlength, fun l => hsame _,
    fun l seen => hsame _, fun l limit => hsame _, fun interval => hsame _,
    fun options h => hsame _, fun limit => hsame _, fun output => hsame _⟩

def sparse : Trace where
  headers := [⟨[0x66], 3, 1, 4⟩]
  labelCount := 6
  sinks := [⟨4, 0, 0⟩]
  taints := [⟨0, 0, 4⟩]
  decode := fun l =>
    match l.toNat with
    | 1 => .ok ⟨.source 0 0, false⟩
    | 2 => .ok ⟨.source 0 1, true⟩
    | 3 => .ok ⟨.source 0 2, false⟩
    | 4 => .ok ⟨.union 5 1, false⟩
    | _ => .error ⟨l, 5⟩

theorem cached_answers_sparse :
    (1 : Int) ≤ 2 ∧
    exists c c', Cache.create? 2 = some c ∧
      (decodeAll ⟨sparse, some c⟩ [1, 2, 1, 5, 3, 2, 5]).2 = ⟨sparse, some c'⟩ ∧ c'.size = 2 ∧
      ((run (Lookup.sources 4) ⟨sparse, some c'⟩).1).2 =
        some (.within (.resolving 4) (.invalidLabel ⟨5, 5⟩)) := by
  rcases cached_answers sparse 2 (by decide) [1, 2, 1, 5, 3, 2, 5] with
    ⟨c, c', hcreate, hdecoded, hsize, hsources, _⟩
  refine ⟨by decide, c, c', hcreate, congrArg Prod.snd hdecoded, ?_, ?_⟩
  · rw [hsize]
    decide
  · rw [hsources 4]
    rfl

end TraceReader
end TaintTrace
