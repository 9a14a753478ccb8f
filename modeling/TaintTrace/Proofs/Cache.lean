import Mathlib
import TaintTrace.Trace.Cache

/-!
# Lookups through a cache

A cache is sound when all its nodes are those of the trace behind it.  Decoding through a
sound cache gives what the trace gives and leaves the cache sound, so any lookup has the
same answer as without a cache.
-/

namespace TaintTrace

namespace Cache

variable {nodes : Label -> Except InvalidLabel Node} {c : Cache} {l : Label} {n : Node}

def Sound (nodes : Label -> Except InvalidLabel Node) (c : Cache) : Prop :=
  forall l n, (l, n) ∈ c.entries -> nodes l = .ok n

theorem Sound.refresh (h : c.Sound nodes) (hn : nodes l = .ok n) :
    (c.refresh l n).Sound nodes := by
  intro m k hmem
  rcases List.mem_cons.mp hmem with heq | hmem
  · cases heq
    exact hn
  · exact h m k (List.mem_of_mem_eraseP hmem)

theorem Sound.add (h : c.Sound nodes) (hn : nodes l = .ok n) : (c.add l n).Sound nodes := by
  intro m k hmem
  rcases List.mem_cons.mp (List.mem_of_mem_take hmem) with heq | hmem
  · cases heq
    exact hn
  · exact h m k hmem

theorem Sound.decode (h : c.Sound nodes) (l : Label) :
    (c.decode nodes l).1 = nodes l ∧ (c.decode nodes l).2.Sound nodes := by
  unfold Cache.decode
  cases hfind : c.entries.find? (·.1 == l) with
  | some entry =>
      rcases entry with ⟨m, n⟩
      have hm : m = l := by simpa using List.find?_some hfind
      subst hm
      have hn : nodes m = .ok n := h m n (List.mem_of_find?_eq_some hfind)
      exact ⟨hn.symm, h.refresh hn⟩
  | none =>
      cases hn : nodes l with
      | error e => exact ⟨rfl, h⟩
      | ok n => exact ⟨rfl, h.add hn⟩

end Cache

namespace TraceReader

def Sound (r : TraceReader) : Prop :=
  forall c, r.cache = some c -> c.Sound r.trace.decode

theorem Sound.decode {r : TraceReader} (h : r.Sound) (l : Label) :
    (r.decode l).1 = r.trace.decode l ∧ (r.decode l).2.Sound ∧
      (r.decode l).2.trace = r.trace := by
  unfold TraceReader.decode
  cases hcache : r.cache with
  | none => exact ⟨rfl, h, rfl⟩
  | some c =>
      have hdecode := (h c hcache).decode l
      refine ⟨hdecode.1, ?_, rfl⟩
      intro c' hc'
      cases hc'
      exact hdecode.2

theorem Sound.run {α : Type} (p : Lookup α) {r : TraceReader} (h : r.Sound) :
    (run p r).1 = p.run r.trace ∧ (run p r).2.Sound ∧ (run p r).2.trace = r.trace := by
  induction p generalizing r with
  | done a => exact ⟨rfl, h, rfl⟩
  | decode l next ih =>
      rcases h.decode l with ⟨hanswer, hsound, htrace⟩
      rcases ih (r.decode l).1 hsound with ⟨hrun, hsound', htrace'⟩
      unfold TraceReader.run
      refine ⟨?_, hsound', htrace'.trans htrace⟩
      rw [hrun, htrace, hanswer]
      rfl

end TraceReader
end TaintTrace
