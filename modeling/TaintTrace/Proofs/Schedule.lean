import Mathlib
import TaintTrace.Proofs.Cache
import TaintTrace.Proofs.Safety

/-!
# Files searched side by side

The passes over the files of a trace can run at the same time, up to a number of them, with one
reader for all.  A schedule says whose turn it is: the loop over the headers takes up the next
file, or one of the passes decodes its next label or ends.  The cache of the reader changes with
every turn, but not what it answers, so each pass ends as it would alone.  Its cavities have a
place of their own, and of the faults only the first one to come is kept.
-/

namespace TaintTrace

def Lookup.steps {α : Type} (nodes : Label -> Except InvalidLabel Node) : Lookup α -> Nat
  | .done _ => 0
  | .decode l next => (next (nodes l)).steps nodes + 1

namespace Cavities

/-!
## Schedules
-/

/-- A pass over a file that has begun, with what is left of it. -/
structure Pass where
  index : Nat
  header : Header
  rest : Lookup (Log × Except Fault (List Cavity))

/-- A search over all files at some time: the headers that the loop has not come to, the passes
that have not ended, a place for the cavities of each file, and the first fault. -/
structure Search where
  reader : TraceReader
  waiting : List (Header × Nat)
  passes : List Pass
  found : List (List Cavity)
  fault : Option Fault

/-- Whose turn it is: the loop over the headers, or one of the passes. -/
inductive Turn where
  | loop
  | pass (position : Nat)
  deriving DecidableEq, Repr

namespace Search

def start (r : TraceReader) : Search where
  reader := r
  waiting := r.trace.headers.zipIdx
  passes := []
  found := r.trace.headers.map fun _ => []
  fault := none

def record (s : Search) (index : Nat) (h : Header) : Except Fault (List Cavity) -> Search
  | .ok cs => { s with found := s.found.set index cs }
  | .error e => { s with fault := s.fault.or (some (.within (.cavitiesOf h.name) e)) }

/-- Take a turn, if it can be taken: the loop has to wait while there are as many passes as
there may be. -/
def take (options : CavityOptions) (limit : Nat) (s : Search) : Turn -> Option Search
  | .loop =>
      match s.waiting with
      | [] => none
      | (h, i) :: waiting =>
          match choose options h with
          | .skip _ => some { s with waiting := waiting }
          | .search =>
              if s.passes.length < limit then
                some { s with
                  waiting := waiting
                  passes := s.passes ++ [⟨i, h, ofHeader s.reader.trace options h⟩] }
              else none
  | .pass k =>
      match s.passes[k]? with
      | none => none
      | some ⟨i, h, .done (_, outcome)⟩ =>
          some ({ s with passes := s.passes.eraseIdx k }.record i h outcome)
      | some ⟨i, h, .decode l next⟩ =>
          some { s with
            reader := (s.reader.decode l).2
            passes := s.passes.set k ⟨i, h, next (s.reader.decode l).1⟩ }

def takeAll (options : CavityOptions) (limit : Nat) : List Turn -> Search -> Option Search
  | [], s => some s
  | turn :: turns, s => (s.take options limit turn).bind (takeAll options limit turns)

/-- The loop has come to the end and all passes have ended. -/
def Over (s : Search) : Prop :=
  s.waiting = [] ∧ s.passes = []

def result (s : Search) : Except Fault (List Cavity) :=
  match s.fault with
  | some e => .error e
  | none => .ok s.found.flatten

/-!
## What a turn can do
-/

variable {options : CavityOptions} {limit : Nat} {s s' : Search}

inductive Moves (options : CavityOptions) (limit : Nat) (s : Search) : Search -> Prop where
  | skip {h : Header} {i : Nat} {waiting : List (Header × Nat)} {message : Message} :
      s.waiting = (h, i) :: waiting ->
      choose options h = .skip message ->
      Moves options limit s { s with waiting := waiting }
  | launch {h : Header} {i : Nat} {waiting : List (Header × Nat)} :
      s.waiting = (h, i) :: waiting ->
      choose options h = .search ->
      s.passes.length < limit ->
      Moves options limit s { s with
        waiting := waiting
        passes := s.passes ++ [⟨i, h, ofHeader s.reader.trace options h⟩] }
  | decode {before after : List Pass} {i : Nat} {h : Header} {l : Label}
      {next : Except InvalidLabel Node -> Lookup (Log × Except Fault (List Cavity))} :
      s.passes = before ++ ⟨i, h, .decode l next⟩ :: after ->
      Moves options limit s { s with
        reader := (s.reader.decode l).2
        passes := before ++ ⟨i, h, next (s.reader.decode l).1⟩ :: after }
  | finish {before after : List Pass} {i : Nat} {h : Header} {log : Log}
      {outcome : Except Fault (List Cavity)} :
      s.passes = before ++ ⟨i, h, .done (log, outcome)⟩ :: after ->
      Moves options limit s ({ s with passes := before ++ after }.record i h outcome)

theorem exists_split_of_getElem? {passes : List Pass} {k : Nat} {p : Pass}
    (h : passes[k]? = some p) :
    exists before after, passes = before ++ p :: after ∧
      passes.eraseIdx k = before ++ after ∧
      forall q, passes.set k q = before ++ q :: after := by
  rcases List.getElem?_eq_some_iff.mp h with ⟨hlt, hp⟩
  refine ⟨passes.take k, passes.drop (k + 1), ?_, List.eraseIdx_eq_take_drop_succ .., ?_⟩
  · rw [← hp, ← List.drop_eq_getElem_cons hlt, List.take_append_drop]
  · intro q
    rw [List.set_eq_take_append_cons_drop, if_pos hlt]

theorem moves_of_take {turn : Turn} (htake : s.take options limit turn = some s') :
    Moves options limit s s' := by
  cases turn with
  | loop =>
      rw [take] at htake
      split at htake
      · cases htake
      · rename_i h i waiting hwaiting
        split at htake
        · rename_i message hchoice
          cases htake
          exact .skip hwaiting hchoice
        · rename_i hchoice
          split at htake
          · rename_i hroom
            cases htake
            exact .launch hwaiting hchoice hroom
          · cases htake
  | pass k =>
      rw [take] at htake
      split at htake
      · cases htake
      · rename_i i h log outcome hpass
        rcases exists_split_of_getElem? hpass with ⟨before, after, hsplit, herase, _⟩
        cases htake
        rw [herase]
        exact .finish hsplit
      · rename_i i h l next hpass
        rcases exists_split_of_getElem? hpass with ⟨before, after, hsplit, _, hset⟩
        cases htake
        rw [hset]
        exact .decode hsplit

/-!
## What every turn keeps
-/

def pending (s : Search) : List Nat :=
  s.passes.map Pass.index ++ s.waiting.map Prod.snd

variable {t : Trace}

structure Valid (t : Trace) (options : CavityOptions) (s : Search) : Prop where
  sound : s.reader.Sound
  trace : s.reader.trace = t
  waiting : forall h i, (h, i) ∈ s.waiting -> t.headers[i]? = some h
  passes : forall p, p ∈ s.passes ->
    t.headers[p.index]? = some p.header ∧ choose options p.header = .search ∧
      p.rest.run t = (ofHeader t options p.header).run t
  nodup : s.pending.Nodup
  length : s.found.length = t.headers.length
  found : forall i h, t.headers[i]? = some h ->
    s.found[i]? = some (if i ∈ s.pending then [] else contribution t options h)
  succeeded : s.fault = none -> forall i h, t.headers[i]? = some h -> i ∉ s.pending ->
    choose options h = .search -> exists cs, alone t options h = .ok cs
  failed : forall e, s.fault = some e -> exists h, h ∈ t.headers ∧ choose options h = .search ∧
    exists cause, alone t options h = .error cause ∧ e = .within (.cavitiesOf h.name) cause

theorem valid_start {r : TraceReader} (hr : r.Sound) : (start r).Valid r.trace options where
  sound := hr
  trace := rfl
  waiting := by
    intro h i hmem
    exact List.mk_mem_zipIdx_iff_getElem?.mp hmem
  passes := by
    intro p hp
    cases hp
  nodup := by
    show (r.trace.headers.zipIdx.map Prod.snd).Nodup
    rw [List.zipIdx_map_snd]
    exact List.nodup_range'
  length := List.length_map _
  found := by
    intro i h hi
    have hpending : i ∈ (start r).pending :=
      List.mem_map.mpr ⟨(h, i), List.mk_mem_zipIdx_iff_getElem?.mpr hi, rfl⟩
    rw [if_pos hpending]
    show (r.trace.headers.map fun _ => ([] : List Cavity))[i]? = some []
    rw [List.getElem?_map, hi]
    rfl
  succeeded := by
    intro _ i h hi hpending
    exact absurd (List.mem_map.mpr ⟨(h, i), List.mk_mem_zipIdx_iff_getElem?.mpr hi, rfl⟩) hpending
  failed := by
    intro e he
    cases he

theorem Valid.go_on (hs : s.Valid t options) (hpending : s'.pending = s.pending)
    (hfound : s'.found = s.found) (hfault : s'.fault = s.fault) (hsound : s'.reader.Sound)
    (htrace : s'.reader.trace = t)
    (hwaiting : forall h i, (h, i) ∈ s'.waiting -> t.headers[i]? = some h)
    (hpasses : forall p, p ∈ s'.passes ->
      t.headers[p.index]? = some p.header ∧ choose options p.header = .search ∧
        p.rest.run t = (ofHeader t options p.header).run t) :
    s'.Valid t options where
  sound := hsound
  trace := htrace
  waiting := hwaiting
  passes := hpasses
  nodup := by
    rw [hpending]
    exact hs.nodup
  length := by
    rw [hfound]
    exact hs.length
  found := by
    rw [hpending, hfound]
    exact hs.found
  succeeded := by
    rw [hpending, hfault]
    exact hs.succeeded
  failed := by
    rw [hfault]
    exact hs.failed

theorem Valid.settle {before after : List Nat} {i : Nat} {h : Header} (hs : s.Valid t options)
    (hpending : s.pending = before ++ i :: after) (hpending' : s'.pending = before ++ after)
    (hreader : s'.reader = s.reader)
    (hwaiting : forall x, x ∈ s'.waiting -> x ∈ s.waiting)
    (hpasses : forall p, p ∈ s'.passes -> p ∈ s.passes)
    (hi : t.headers[i]? = some h)
    (hlength : s'.found.length = s.found.length)
    (hhere : s'.found[i]? = some (contribution t options h))
    (helse : forall j, j ≠ i -> s'.found[j]? = s.found[j]?)
    (hfault : (s'.fault = s.fault ∧
        (choose options h = .search -> exists cs, alone t options h = .ok cs)) ∨
      (exists cause, choose options h = .search ∧ alone t options h = .error cause ∧
        s'.fault = s.fault.or (some (.within (.cavitiesOf h.name) cause)))) :
    s'.Valid t options := by
  have hnodup := hs.nodup
  rw [hpending, List.nodup_middle, List.nodup_cons] at hnodup
  have hleft : forall j, j ≠ i -> (j ∈ s'.pending <-> j ∈ s.pending) := by
    intro j hj
    simp [hpending, hpending', hj]
  constructor
  · rw [hreader]
    exact hs.sound
  · rw [hreader]
    exact hs.trace
  · intro h' j hmem
    exact hs.waiting h' j (hwaiting _ hmem)
  · intro p hp
    exact hs.passes p (hpasses p hp)
  · rw [hpending']
    exact hnodup.2
  · rw [hlength]
    exact hs.length
  · intro j h' hj
    by_cases hji : j = i
    · subst hji
      rw [hi] at hj
      cases hj
      rw [hhere, hpending', if_neg hnodup.1]
    · rw [helse j hji, hs.found j h' hj]
      simp only [hleft j hji]
  · intro hnone j h' hj hdone hchoice
    rcases hfault with ⟨hsame, hok⟩ | ⟨cause, _, _, hkept⟩
    · by_cases hji : j = i
      · subst hji
        rw [hi] at hj
        cases hj
        exact hok hchoice
      · rw [hsame] at hnone
        exact hs.succeeded hnone j h' hj (fun hmem => hdone ((hleft j hji).mpr hmem)) hchoice
    · rw [hkept, Option.or_eq_none_iff] at hnone
      cases hnone.2
  · intro e he
    rcases hfault with ⟨hsame, _⟩ | ⟨cause, hchoice, herror, hkept⟩
    · rw [hsame] at he
      exact hs.failed e he
    · rw [hkept, Option.or_eq_some_iff] at he
      rcases he with he | ⟨_, he⟩
      · exact hs.failed e he
      · cases he
        exact ⟨h, List.mem_of_getElem? hi, hchoice, cause, herror, rfl⟩

theorem Valid.finish {before after : List Pass} {i : Nat} {h : Header} {log : Log}
    {outcome : Except Fault (List Cavity)} (hs : s.Valid t options)
    (hpasses : s.passes = before ++ ⟨i, h, .done (log, outcome)⟩ :: after) :
    ({ s with passes := before ++ after }.record i h outcome).Valid t options := by
  rcases hs.passes ⟨i, h, .done (log, outcome)⟩ (by simp [hpasses]) with
    ⟨hi, hchoice, hrest⟩
  have halone : alone t options h = outcome := congrArg Prod.snd hrest.symm
  have hpending : s.pending =
      before.map Pass.index ++ i :: (after.map Pass.index ++ s.waiting.map Prod.snd) := by
    simp [pending, hpasses]
  have hsub : forall p, p ∈ before ++ after -> p ∈ s.passes := by
    intro p hp
    rw [hpasses]
    rcases List.mem_append.mp hp with hp | hp
    · exact List.mem_append_left _ hp
    · exact List.mem_append_right _ (List.mem_cons_of_mem _ hp)
  have hempty : s.found[i]? = some [] := by
    rw [hs.found i h hi, if_pos (by simp [hpending])]
  cases outcome with
  | ok cs =>
      refine hs.settle hpending (by simp [pending, record]) rfl (fun x hx => hx) hsub hi
        (by simp [record]) ?_ ?_ (Or.inl ⟨rfl, fun _ => ⟨cs, halone⟩⟩)
      · rw [contribution_eq_of_ok hchoice halone]
        rcases List.getElem?_eq_some_iff.mp hempty with ⟨hlt, _⟩
        exact List.getElem?_set_self hlt
      · intro j hj
        exact List.getElem?_set_ne (Ne.symm hj)
  | error e =>
      refine hs.settle hpending (by simp [pending, record]) rfl (fun x hx => hx) hsub hi
        rfl ?_ (fun j hj => rfl) (Or.inr ⟨e, hchoice, halone, rfl⟩)
      rw [contribution_eq_nil_of_error halone]
      exact hempty

theorem Valid.moves (hs : s.Valid t options) (hmoves : Moves options limit s s') :
    s'.Valid t options := by
  cases hmoves with
  | @skip h i waiting message hwaiting hchoice =>
      have hpending : s.pending = s.passes.map Pass.index ++ i :: waiting.map Prod.snd := by
        simp [pending, hwaiting]
      have hi : t.headers[i]? = some h := hs.waiting h i (by simp [hwaiting])
      refine hs.settle hpending rfl rfl ?_ (fun p hp => hp) hi rfl ?_ (fun j hj => rfl) ?_
      · intro x hx
        rw [hwaiting]
        exact List.mem_cons_of_mem _ hx
      · show s.found[i]? = _
        rw [contribution_eq_nil_of_skip hchoice, hs.found i h hi, if_pos (by simp [hpending])]
      · apply Or.inl
        refine ⟨rfl, ?_⟩
        intro hsearch
        rw [hchoice] at hsearch
        cases hsearch
  | @launch h i waiting hwaiting hchoice hroom =>
      have hi : t.headers[i]? = some h := hs.waiting h i (by simp [hwaiting])
      refine hs.go_on ?_ rfl rfl hs.sound hs.trace ?_ ?_
      · simp [pending, hwaiting]
      · intro h' j hmem
        exact hs.waiting h' j (by rw [hwaiting]; exact List.mem_cons_of_mem _ hmem)
      · intro p hp
        rcases List.mem_append.mp hp with hp | hp
        · exact hs.passes p hp
        · rw [List.mem_singleton.mp hp, hs.trace]
          exact ⟨hi, hchoice, rfl⟩
  | @decode before after i h l next hpasses =>
      rcases hs.sound.decode l with ⟨hanswer, hsound, htrace⟩
      have hpass := hs.passes ⟨i, h, .decode l next⟩ (by simp [hpasses])
      refine hs.go_on ?_ rfl rfl hsound (htrace.trans hs.trace) hs.waiting ?_
      · simp [pending, hpasses]
      · intro p hp
        rcases List.mem_append.mp hp with hp | hp
        · exact hs.passes p (by rw [hpasses]; exact List.mem_append_left _ hp)
        · rcases List.mem_cons.mp hp with hp | hp
          · rw [hp, hanswer, hs.trace]
            exact hpass
          · exact hs.passes p (by simp [hpasses, hp])
  | finish hpasses => exact hs.finish hpasses

theorem Valid.takeAll (hs : s.Valid t options) (turns : List Turn)
    (htakes : takeAll options limit turns s = some s') : s'.Valid t options := by
  induction turns generalizing s with
  | nil =>
      cases htakes
      exact hs
  | cons turn turns ih =>
      rcases Option.bind_eq_some_iff.mp htakes with ⟨mid, htake, hrest⟩
      exact ih (hs.moves (moves_of_take htake)) hrest

/-!
## Every schedule comes to an end
-/

def effort (t : Trace) (options : CavityOptions) (h : Header) : Nat :=
  match choose options h with
  | .skip _ => 1
  | .search => (ofHeader t options h).steps t.decode + 2

def work (t : Trace) (options : CavityOptions) (s : Search) : Nat :=
  (s.waiting.map fun file => effort t options file.1).sum
    + (s.passes.map fun p => p.rest.steps t.decode + 1).sum

theorem work_record (i : Nat) (h : Header) (outcome : Except Fault (List Cavity)) :
    (s.record i h outcome).work t options = s.work t options := by
  cases outcome <;> rfl

/-- Whichever turn is taken, one turn less is left. -/
theorem Valid.work_moves (hs : s.Valid t options) (hmoves : Moves options limit s s') :
    s.work t options = s'.work t options + 1 := by
  cases hmoves with
  | skip hwaiting hchoice =>
      simp only [work, hwaiting, List.map_cons, List.sum_cons, effort, hchoice]
      omega
  | launch hwaiting hchoice _ =>
      simp only [work, hwaiting, List.map_cons, List.sum_cons, effort, hchoice, List.map_append,
        List.sum_append, List.map_nil, List.sum_nil, hs.trace]
      omega
  | @decode _ _ _ _ l _ hpasses =>
      have hanswer := (hs.sound.decode l).1
      rw [hs.trace] at hanswer
      simp only [work, hpasses, hanswer, List.map_append, List.map_cons, List.sum_append,
        List.sum_cons, Lookup.steps]
      omega
  | finish hpasses =>
      rw [work_record]
      simp only [work, hpasses, List.map_append, List.map_cons, List.sum_append, List.sum_cons,
        Lookup.steps]
      omega

theorem Valid.work_takeAll (hs : s.Valid t options) (turns : List Turn)
    (htakes : Search.takeAll options limit turns s = some s') :
    s.work t options = s'.work t options + turns.length := by
  induction turns generalizing s with
  | nil =>
      cases htakes
      rfl
  | cons turn turns ih =>
      rcases Option.bind_eq_some_iff.mp htakes with ⟨mid, htake, hrest⟩
      have hmoves := moves_of_take htake
      rw [hs.work_moves hmoves, ih (hs.moves hmoves) hrest, List.length_cons, Nat.add_assoc]

/-- Unless a search is over, somebody can take a turn: a pass always can, and the loop can when
there is no pass. -/
theorem exists_take (options : CavityOptions) (hlimit : 0 < limit) (hleft : ¬ s.Over) :
    exists turn s', s.take options limit turn = some s' := by
  cases hpasses : s.passes with
  | cons p passes =>
      exists .pass 0
      rcases p with ⟨i, h, rest⟩
      rw [take, hpasses]
      cases rest with
      | done answer => exact ⟨_, rfl⟩
      | decode l next => exact ⟨_, rfl⟩
  | nil =>
      exists .loop
      cases hwaiting : s.waiting with
      | nil => exact absurd ⟨hwaiting, hpasses⟩ hleft
      | cons file waiting =>
          rcases file with ⟨h, i⟩
          rw [take, hwaiting]
          dsimp only
          cases choose options h with
          | skip message => exact ⟨_, rfl⟩
          | search =>
              rw [hpasses]
              exact ⟨_, if_pos hlimit⟩

theorem Valid.exists_takeAll_over (hs : s.Valid t options) (hlimit : 0 < limit) :
    exists turns s', Search.takeAll options limit turns s = some s' ∧ s'.Over := by
  -- Each turn leaves less to do, so taking any turn there is leads to the end.
  induction hwork : s.work t options generalizing s with
  | zero =>
      refine ⟨[], s, rfl, ?_⟩
      by_contra hleft
      rcases exists_take options hlimit hleft with ⟨turn, mid, htake⟩
      have hless := hs.work_moves (moves_of_take htake)
      omega
  | succ n ih =>
      by_cases hover : s.Over
      · exact ⟨[], s, rfl, hover⟩
      · rcases exists_take options hlimit hover with ⟨turn, mid, htake⟩
        have hmoves := moves_of_take htake
        have hless := hs.work_moves hmoves
        rcases ih (hs.moves hmoves) (by omega) with ⟨turns, s', htakes, hover'⟩
        refine ⟨turn :: turns, s', ?_, hover'⟩
        rw [Search.takeAll, htake]
        exact htakes

/-!
## How a search ends
-/

theorem Valid.found_of_over (hs : s.Valid t options) (hover : s.Over) :
    s.found = t.headers.map (contribution t options) := by
  have hpending : s.pending = [] := by
    rw [pending, hover.1, hover.2]
    rfl
  apply List.ext_getElem?
  intro i
  rw [List.getElem?_map]
  cases hi : t.headers[i]? with
  | none =>
      rw [List.getElem?_eq_none_iff, ← hs.length] at hi
      exact List.getElem?_eq_none hi
  | some h =>
      rw [hs.found i h hi, hpending, if_neg (by simp)]
      rfl

theorem Valid.fault_eq_none_iff (hs : s.Valid t options) (hover : s.Over) :
    s.fault = none <-> forall h, h ∈ t.headers -> choose options h = .search ->
      exists cs, alone t options h = .ok cs := by
  constructor
  · intro hnone h hmem hchoice
    rcases List.mem_iff_getElem?.mp hmem with ⟨i, hi⟩
    exact hs.succeeded hnone i h hi (by simp [pending, hover.1, hover.2]) hchoice
  · intro hall
    cases hfault : s.fault with
    | none => rfl
    | some e =>
        rcases hs.failed e hfault with ⟨h, hmem, hchoice, cause, herror, _⟩
        rcases hall h hmem hchoice with ⟨cs, hok⟩
        rw [herror] at hok
        cases hok

theorem fault_of_result_error {e : Fault} (he : s.result = .error e) : s.fault = some e := by
  unfold result at he
  cases hfault : s.fault with
  | none =>
      rw [hfault] at he
      cases he
  | some first =>
      rw [hfault] at he
      cases he
      rfl

theorem Valid.result_eq_ok_iff (hs : s.Valid t options) (hover : s.Over) {cs : List Cavity} :
    s.result = .ok cs <->
      (forall h, h ∈ t.headers -> choose options h = .search ->
        exists part, alone t options h = .ok part) ∧
      cs = (t.headers.map (contribution t options)).flatten := by
  rw [← hs.fault_eq_none_iff hover, ← hs.found_of_over hover, result]
  cases s.fault with
  | none => simp [eq_comm]
  | some e => simp

end Search

theorem exists_parts {t : Trace} {options : CavityOptions} {hs : List Header}
    (hall : forall h, h ∈ hs -> choose options h = .search ->
      exists part, alone t options h = .ok part) :
    exists parts, List.Forall₂ (fun h part => alone t options h = .ok part)
        (hs.filter fun h => decide (0 < h.length) && options.selects h.name) parts ∧
      (hs.map (contribution t options)).flatten = parts.flatten := by
  induction hs with
  | nil => exact ⟨[], .nil, rfl⟩
  | cons h hs ih =>
      rw [List.forall_mem_cons] at hall
      rcases ih hall.2 with ⟨parts, hparts, hflatten⟩
      have hsearched : (decide (0 < h.length) && options.selects h.name) = true <->
          choose options h = .search := by
        rw [choose_eq_search_iff, Bool.and_eq_true, decide_eq_true_eq]
      cases hchoice : choose options h with
      | skip message =>
          refine ⟨parts, ?_, ?_⟩
          · rw [List.filter_cons_of_neg]
            · exact hparts
            · rw [hsearched, hchoice]
              intro habsurd
              cases habsurd
          · rw [List.map_cons, List.flatten_cons, contribution_eq_nil_of_skip hchoice, hflatten]
            rfl
      | search =>
          rcases hall.1 hchoice with ⟨part, hpart⟩
          refine ⟨part :: parts, ?_, ?_⟩
          · rw [List.filter_cons_of_pos]
            · exact .cons hpart hparts
            · exact hsearched.mpr hchoice
          · rw [List.map_cons, List.flatten_cons, contribution_eq_of_ok hchoice hpart, hflatten]
            rfl

/-!
## Main result
-/

/-- How many passes there may be at a time; without a positive number there is one. -/
def passLimit (routines : Int) : Nat :=
  if 0 < routines then routines.toNat else 1

theorem passLimit_pos (routines : Int) : 0 < passLimit routines := by
  unfold passLimit
  split <;> omega

/-- Whatever the schedule, the number of passes at a time and the cache that they share, a
search of all files comes to an end after a number of turns that is known before.  It
succeeds if the pass over each file that is searched does so alone, and has the cavities of these
passes, file by file, as the search that takes one file after the other.  If it fails, then with the
fault of one of the passes that fail alone. -/
theorem cavities_of_any_schedule (r : TraceReader) (hr : r.Sound) (options : CavityOptions)
    (routines : Int) :
    exists bound, forall turns s,
      Search.takeAll options (passLimit routines) turns (Search.start r) = some s ->
      turns.length ≤ bound ∧
      (exists more s', Search.takeAll options (passLimit routines) more s = some s' ∧ s'.Over) ∧
      (s.Over ->
        ((exists cs, s.result = .ok cs) <->
          forall h, h ∈ r.trace.headers -> 0 < h.length -> options.selects h.name = true ->
            exists cs, alone r.trace options h = .ok cs) ∧
        (forall cs, s.result = .ok cs ->
          exists parts, List.Forall₂ (fun h part => alone r.trace options h = .ok part)
            (r.trace.headers.filter fun h => decide (0 < h.length) && options.selects h.name)
            parts ∧ cs = parts.flatten) ∧
        (forall cs, s.result = .ok cs <-> ((r.trace.cavities options).run r.trace).2 = .ok cs) ∧
        forall e, s.result = .error e ->
          exists h cause, h ∈ r.trace.headers ∧ 0 < h.length ∧ options.selects h.name = true ∧
            alone r.trace options h = .error cause ∧
            e = .within (.cavitiesOf h.name) cause) := by
  have hstart : (Search.start r).Valid r.trace options := Search.valid_start hr
  exists (Search.start r).work r.trace options
  intro turns s htakes
  have hs := hstart.takeAll turns htakes
  refine ⟨?_, hs.exists_takeAll_over (passLimit_pos routines), ?_⟩
  · have hwork := hstart.work_takeAll turns htakes
    omega
  · intro hover
    refine ⟨?_, ?_, ?_, ?_⟩
    · constructor
      · intro hok h hmem hlength hselects
        rcases hok with ⟨cs, hcs⟩
        exact ((hs.result_eq_ok_iff hover).mp hcs).1 h hmem
          (choose_eq_search_iff.mpr ⟨hlength, hselects⟩)
      · intro hall
        refine ⟨_, (hs.result_eq_ok_iff hover).mpr ⟨?_, rfl⟩⟩
        intro h hmem hchoice
        rcases choose_eq_search_iff.mp hchoice with ⟨hlength, hselects⟩
        exact hall h hmem hlength hselects
    · intro cs hcs
      rcases (hs.result_eq_ok_iff hover).mp hcs with ⟨hall, rfl⟩
      exact exists_parts hall
    · intro cs
      rw [hs.result_eq_ok_iff hover, cavities_eq_ok_iff]
    · intro e he
      rcases hs.failed e (Search.fault_of_result_error he) with ⟨h, hmem, hchoice, cause, herror, heq⟩
      rcases choose_eq_search_iff.mp hchoice with ⟨hlength, hselects⟩
      exact ⟨h, cause, hmem, hlength, hselects, herror, heq⟩

/-- Two files of two bytes and an output.  The first bytes of both flow to the output. -/
def weft : Trace where
  headers := [⟨[0x66], 3, 1, 3⟩, ⟨[0x67], 4, 3, 5⟩, ⟨[0x6f], 5, 5, 5⟩]
  labelCount := 6
  sinks := [⟨5, 0, 2⟩]
  taints := []
  decode := fun l =>
    match l.toNat with
    | 1 => .ok ⟨.source 0 0, false⟩
    | 2 => .ok ⟨.source 0 1, false⟩
    | 3 => .ok ⟨.source 1 0, false⟩
    | 4 => .ok ⟨.source 1 1, false⟩
    | 5 => .ok ⟨.union 3 1, false⟩
    | _ => .error ⟨l, 5⟩

/-- Both passes take turns, and the one that began last ends first. -/
def weaving : List Turn :=
  [.loop, .loop, .loop] ++ (List.replicate 7 [Turn.pass 1, .pass 0]).flatten

theorem cavities_of_any_schedule_weft :
    exists c s, Cache.create? 1 = some c ∧ TraceReader.Sound ⟨weft, some c⟩ ∧
      Search.takeAll ⟨fun _ => true, false, 0⟩ (passLimit 2) weaving
        (Search.start ⟨weft, some c⟩) = some s ∧
      s.Over ∧ s.result = .ok [⟨[0x66], 1, 2⟩, ⟨[0x67], 1, 2⟩] ∧
      ((weft.cavities ⟨fun _ => true, false, 0⟩).run weft).2 =
        .ok [⟨[0x66], 1, 2⟩, ⟨[0x67], 1, 2⟩] := by
  have hsound : TraceReader.Sound ⟨weft, some ⟨1, []⟩⟩ := by
    intro c hc l n hmem
    cases hc
    cases hmem
  have htaken : exists s, Search.takeAll ⟨fun _ => true, false, 0⟩ (passLimit 2) weaving
      (Search.start ⟨weft, some ⟨1, []⟩⟩) = some s ∧
      s.Over ∧ s.result = .ok [⟨[0x66], 1, 2⟩, ⟨[0x67], 1, 2⟩] :=
    ⟨_, rfl, ⟨rfl, rfl⟩, rfl⟩
  rcases htaken with ⟨s, htakes, hover, hresult⟩
  rcases cavities_of_any_schedule ⟨weft, some ⟨1, []⟩⟩ hsound ⟨fun _ => true, false, 0⟩ 2 with
    ⟨bound, hall⟩
  exact ⟨_, s, rfl, hsound, htakes, hover, hresult,
    (((hall weaving s htakes).2.2 hover).2.2.1 _).mp hresult⟩

end Cavities
end TaintTrace
