import Mathlib
import TaintTrace.Proofs.Mapping
import TaintTrace.Proofs.Terminal

/-!
# The text of a map of bytes

The text of a map depends only on which bytes flow where.  Its bytes may come in any order and
be sorted in any way that goes by their places: as an identifier stands for one file, there is
one result.  So output taints that are given in another order, or more than once, do not change
the text.
-/

namespace TaintTrace

/-!
## Lines of a text
-/

namespace Text

variable {b : UInt8} {s : Text}

theorem lines_append_newline (hs : newline ∉ s) (rest : Text) :
    lines (s ++ newline :: rest) = (s ++ [newline]) :: lines rest := by
  induction s with
  | nil => rw [List.nil_append, lines, if_pos rfl, List.nil_append]
  | cons b s ih =>
      rw [List.mem_cons, not_or] at hs
      rw [List.cons_append, lines, if_neg fun h => hs.1 h.symm, ih hs.2]
      rfl

theorem lines_flatten {ls : List Text}
    (h : forall l, l ∈ ls -> exists s, l = s ++ [newline] ∧ newline ∉ s) :
    lines ls.flatten = ls := by
  induction ls with
  | nil => rfl
  | cons l ls ih =>
      rw [List.forall_mem_cons] at h
      rcases h.1 with ⟨s, rfl, hs⟩
      rw [List.flatten_cons, List.append_assoc, List.singleton_append, lines_append_newline hs,
        ih h.2]

theorem mem_join {separator : Text} {ts : List Text} (h : b ∈ join separator ts) :
    b ∈ separator ∨ exists t, t ∈ ts ∧ b ∈ t := by
  rcases List.mem_flatten.mp h with ⟨t, ht, hb⟩
  rcases mem_intersperse ht with rfl | ht
  · exact Or.inl hb
  · exact Or.inr ⟨t, ht, hb⟩

theorem newline_not_mem_ofNat (n : Nat) : newline ∉ ofNat n := by
  intro h
  rcases List.mem_map.mp h with ⟨c, hc, hnewline⟩
  have hall : digitChars.all (fun c => byte c != newline) = true := by decide
  have hother := List.all_eq_true.mp hall c (mem_digitChars (by decide) n c hc)
  rw [hnewline] at hother
  cases hother

end Text

/-!
## Sorting by places
-/

namespace ByteOffset

instance : Std.Irrefl Before := ⟨fun _ h => h.ne rfl⟩

instance : Std.Antisymm Before := ⟨fun _ _ hab hba => absurd rfl (hab.trans hba).ne⟩

theorem Uniform.before_of_not_before {P : ByteOffset -> Prop} (hP : Uniform P) {a b : ByteOffset}
    (ha : P a) (hb : P b) (hne : a ≠ b) (h : ¬ b.Before a) : a.Before b := by
  rcases le_total a b with hab | hba
  · exact hP.before ha hb hab hne
  · exact absurd (hP.before hb ha hba hne.symm) h

end ByteOffset

namespace ByteMap

open ByteOffset

/-- The bytes with a property in any order, each once, as a table is gone through. -/
structure Iterates (P : ByteOffset -> Prop) (bs : List ByteOffset) : Prop where
  once : bs.Nodup
  all : forall b, b ∈ bs <-> P b

/-- What a sort that goes by places may make of some bytes: no byte stands behind one that it
comes before.  Bytes at the same place may stand in any order. -/
structure SortsTo (bs sorted : List ByteOffset) : Prop where
  perm : sorted.Perm bs
  ordered : sorted.Pairwise fun a b => ¬ b.Before a

/-- A map that may be written for bytes that flow to others, with tables that are gone through
in any order and sorted by places. -/
structure Reports (flows : ByteOffset -> ByteOffset -> Prop) (m : ByteMap) : Prop where
  inputs : exists listed, Iterates (fun a => exists b, flows a b) listed ∧
    SortsTo listed (m.map Prod.fst)
  outputs : forall a outs, (a, outs) ∈ m ->
    exists listed, Iterates (flows a) listed ∧ SortsTo listed outs

variable {P Q : ByteOffset -> Prop} {flows : ByteOffset -> ByteOffset -> Prop} {m m' : ByteMap}

theorem SortsTo.strict (hP : Uniform P) (hQ : forall b, Q b -> P b) {bs sorted : List ByteOffset}
    (hsorts : SortsTo bs sorted) (hbs : Iterates Q bs) :
    sorted.Pairwise Before ∧ forall b, b ∈ sorted <-> Q b := by
  have hmem : forall b, b ∈ sorted <-> Q b := fun b => hsorts.perm.mem_iff.trans (hbs.all b)
  refine ⟨?_, hmem⟩
  -- Different bytes of one file are at different places, so one of two comes before the other.
  have hboth := hsorts.ordered.and (hsorts.perm.nodup_iff.mpr hbs.once)
  refine hboth.imp_of_mem ?_
  intro a b ha hb hab
  exact hP.before_of_not_before (hQ a ((hmem a).mp ha)) (hQ b ((hmem b).mp hb)) hab.2 hab.1

theorem eq_of_strict {bs bs' : List ByteOffset} (h : bs.Pairwise Before ∧ forall b, b ∈ bs <-> Q b)
    (h' : bs'.Pairwise Before ∧ forall b, b ∈ bs' <-> Q b) : bs = bs' :=
  h.1.eq_of_mem_iff h'.1 fun b => (h.2 b).trans (h'.2 b).symm

theorem eq_of_keys (hkeys : m.map Prod.fst = m'.map Prod.fst)
    (houts : forall a outs outs', (a, outs) ∈ m -> (a, outs') ∈ m' -> outs = outs') : m = m' := by
  induction m generalizing m' with
  | nil => exact (List.map_eq_nil_iff.mp hkeys.symm).symm
  | cons e m ih =>
      cases m' with
      | nil => cases hkeys
      | cons e' m' =>
          rcases e with ⟨a, outs⟩
          rcases e' with ⟨a', outs'⟩
          rw [List.map_cons, List.map_cons, List.cons.injEq] at hkeys
          rcases hkeys with ⟨hkey, hkeys⟩
          dsimp only at hkey
          subst hkey
          rw [houts a outs outs' List.mem_cons_self List.mem_cons_self]
          refine congrArg _ (ih hkeys ?_)
          intro b bouts bouts' hb hb'
          exact houts b bouts bouts' (List.mem_cons_of_mem _ hb) (List.mem_cons_of_mem _ hb')

/-- Whatever the order in which the tables are gone through, the same map is written. -/
theorem Reports.unique (hP : Uniform P) (hflows : forall a b, flows a b -> P a ∧ P b)
    (h : Reports flows m) (h' : Reports flows m') : m = m' := by
  rcases h.inputs with ⟨listed, hlisted, hsorts⟩
  rcases h'.inputs with ⟨listed', hlisted', hsorts'⟩
  have hinput : forall a, (exists b, flows a b) -> P a := by
    intro a ha
    rcases ha with ⟨b, hab⟩
    exact (hflows a b hab).1
  refine eq_of_keys
    (eq_of_strict (hsorts.strict hP hinput hlisted) (hsorts'.strict hP hinput hlisted')) ?_
  intro a outs outs' ha ha'
  rcases h.outputs a outs ha with ⟨outsListed, houtsListed, houtsSorts⟩
  rcases h'.outputs a outs' ha' with ⟨outsListed', houtsListed', houtsSorts'⟩
  exact eq_of_strict (houtsSorts.strict hP (fun b hb => (hflows a b hb).2) houtsListed)
    (houtsSorts'.strict hP (fun b hb => (hflows a b hb).2) houtsListed')

theorem sortsTo_self {bs : List ByteOffset} (h : bs.Pairwise Before) : SortsTo bs bs :=
  ⟨.refl bs, h.imp fun hab hba => (hab.trans hba).ne rfl⟩

/-!
## Lines
-/

/-- The line of an input byte: the byte itself, and the bytes that it flows to in strict order. -/
inductive Line (flows : ByteOffset -> ByteOffset -> Prop) (a : ByteOffset) : Text -> Prop
  | mk (outs : List ByteOffset) (hordered : outs.Pairwise Before)
      (hall : forall b, b ∈ outs <-> flows a b) :
      Line flows a (a.text ++ " -> " ++ Text.join ", " (outs.map ByteOffset.text) ++ "\n")

def lineOf (e : ByteOffset × List ByteOffset) : Text :=
  e.1.text ++ " -> " ++ Text.join ", " (e.2.map ByteOffset.text) ++ "\n"

theorem text_eq_flatten (m : ByteMap) : m.text = (m.map lineOf).flatten :=
  List.flatMap_def

end ByteMap

/-!
## The map of a trace
-/

namespace Trace

open ByteOffset ByteMap

variable {t t' : Trace} {m m' : ByteMap}

/-- Whether an output taint says that a byte of a file flows to another one. -/
def Flows (t : Trace) (a b : ByteOffset) : Prop :=
  t.IsInput a.file ∧ t.IsInput b.file ∧ exists o, o ∈ t.taints ∧ t.Carries o a b

theorem Mapped.mem_outputs_iff (h : t.Mapped m) {a b : ByteOffset} {outs : List ByteOffset}
    (ha : (a, outs) ∈ m) : b ∈ outs <-> t.Flows a b := by
  have hkeys : (m.map Prod.fst).Nodup := by
    rw [List.Nodup, List.pairwise_map]
    exact h.ordered.imp Before.ne
  constructor
  · intro hb
    exact (h.flows a b).mp ⟨outs, ha, hb⟩
  · intro hflows
    rcases (h.flows a b).mpr hflows with ⟨outs', ha', hb⟩
    have hsame : (a, outs') = (a, outs) := List.inj_on_of_nodup_map hkeys ha' ha rfl
    cases hsame
    exact hb

theorem Mapped.mem_inputs_iff (h : t.Mapped m) {a : ByteOffset} :
    a ∈ m.map Prod.fst <-> exists b, t.Flows a b := by
  constructor
  · intro ha
    rcases List.mem_map.mp ha with ⟨⟨a, outs⟩, hentry, rfl⟩
    rcases List.exists_mem_of_ne_nil outs (h.outputs a outs hentry).1 with ⟨b, hb⟩
    exact ⟨b, (h.mem_outputs_iff hentry).mp hb⟩
  · intro ha
    rcases ha with ⟨b, hflows⟩
    rcases (h.flows a b).mpr hflows with ⟨outs, hentry, _⟩
    exact List.mem_map_of_mem hentry

theorem Mapped.pairwise_inputs (h : t.Mapped m) : (m.map Prod.fst).Pairwise Before :=
  List.pairwise_map.mpr h.ordered

theorem Mapped.reports (h : t.Mapped m) : Reports t.Flows m := by
  constructor
  · refine ⟨m.map Prod.fst, ⟨?_, fun a => h.mem_inputs_iff⟩, sortsTo_self h.pairwise_inputs⟩
    exact h.pairwise_inputs.imp Before.ne
  · intro a outs ha
    have hordered := (h.outputs a outs ha).2
    exact ⟨outs, ⟨hordered.imp Before.ne, fun b => h.mem_outputs_iff ha⟩, sortsTo_self hordered⟩

/-!
## Traces with the same files and nodes
-/

theorem Mappable.of_same (hheaders : t'.headers = t.headers) (hnodes : t'.decode = t.decode)
    {o : OutputTaint} (h : t.Mappable o) : t'.Mappable o := by
  refine ⟨?_, ?_, ?_⟩
  · rw [hheaders]
    exact h.output
  · rw [hnodes]
    exact h.label.decodes
  · rw [hnodes, hheaders]
    exact h.label.files

theorem flows_congr (hheaders : t'.headers = t.headers) (hnodes : t'.decode = t.decode)
    (htaints : forall o, o ∈ t'.taints <-> o ∈ t.taints) : t'.Flows = t.Flows := by
  funext a b
  unfold Flows IsInput Carries ComesFrom
  rw [hheaders, hnodes]
  simp only [htaints]

theorem exists_byteMap_of_same (hheaders : t'.headers = t.headers) (hnodes : t'.decode = t.decode)
    (htaints : forall o, o ∈ t'.taints <-> o ∈ t.taints) (interval : Int)
    (hall : forall o, o ∈ t.taints -> t.Mappable o) :
    exists m, ((t'.byteMap interval).run t').2 = .ok m ∧ Reports t.Flows m := by
  rcases byteMap_cases t' interval with ⟨m, hok, _, hmapped⟩ | ⟨_, o, ho, hbad⟩
  · have hreports := hmapped.reports
    rw [flows_congr hheaders hnodes htaints] at hreports
    exact ⟨m, hok, hreports⟩
  · exact absurd ((hall o ((htaints o).mp ho)).of_same hheaders hnodes) hbad

theorem Mapped.lines (h : t.Mapped m) :
    List.Forall₂ (Line t.Flows) (m.map Prod.fst) (m.map lineOf) := by
  rw [List.forall₂_map_left_iff, List.forall₂_map_right_iff, List.forall₂_same]
  intro e he
  exact .mk e.2 (h.outputs e.1 e.2 he).2 fun b => h.mem_outputs_iff he

theorem newline_not_mem_text (hnames : forall h, h ∈ t.headers -> Text.newline ∉ h.name)
    {b : ByteOffset} (hb : t.IsInput b.file) : Text.newline ∉ b.text := by
  rcases hb with ⟨k, h, hheader, hfile⟩
  have hname := hnames h (List.mem_of_getElem? hheader)
  have hnumber := Text.newline_not_mem_ofNat b.offset.toNat
  unfold ByteOffset.text
  rw [hfile]
  simp only [List.mem_append, not_or]
  exact ⟨⟨⟨hname, by decide⟩, hnumber⟩, by decide⟩

theorem Mapped.lines_text (h : t.Mapped m)
    (hnames : forall h, h ∈ t.headers -> Text.newline ∉ h.name) :
    Text.lines m.text = m.map lineOf := by
  rw [text_eq_flatten]
  apply Text.lines_flatten
  intro l hl
  rcases List.mem_map.mp hl with ⟨⟨a, outs⟩, he, rfl⟩
  have ha : Text.newline ∉ a.text := by
    rcases h.mem_inputs_iff.mp (List.mem_map_of_mem he) with ⟨b, hflows⟩
    exact newline_not_mem_text hnames hflows.1
  have houts : Text.newline ∉ Text.join ", " (outs.map ByteOffset.text) := by
    intro hnewline
    rcases Text.mem_join hnewline with hseparator | ⟨l, hl, hnewline⟩
    · exact absurd hseparator (by decide)
    · rcases List.mem_map.mp hl with ⟨b, hb, rfl⟩
      exact newline_not_mem_text hnames ((h.mem_outputs_iff he).mp hb).2.1 hnewline
  refine ⟨a.text ++ " -> " ++ Text.join ", " (outs.map ByteOffset.text), rfl, ?_⟩
  rw [List.mem_append, List.mem_append, not_or, not_or]
  exact ⟨⟨ha, by decide⟩, houts⟩

/-- The text of the map of a trace depends on its headers, its nodes and the set of its output
taints only.  It has one line for each input byte that flows somewhere, in strictly increasing
order, and each line has the output bytes of its input byte in strictly increasing order; these
are the lines of the text unless a name has a newline.  The text is the same in whatever order the
tables of bytes are gone through. -/
theorem byteMap_text_canonical (t t' : Trace) (hheaders : t'.headers = t.headers)
    (hnodes : t'.decode = t.decode) (htaints : forall o, o ∈ t'.taints <-> o ∈ t.taints)
    (interval interval' : Int) (m : ByteMap) (hm : ((t.byteMap interval).run t).2 = .ok m) :
    (exists m', ((t'.byteMap interval').run t').2 = .ok m' ∧ m'.text = m.text) ∧
    (exists inputs lines, inputs.Pairwise Before ∧
      (forall a, a ∈ inputs <-> exists b, t.Flows a b) ∧
      List.Forall₂ (Line t.Flows) inputs lines ∧ m.text = lines.flatten ∧
      ((forall h, h ∈ t.headers -> Text.newline ∉ h.name) -> Text.lines m.text = lines)) ∧
    forall entries, Reports t.Flows entries -> entries.text = m.text := by
  rcases byteMap_cases t interval with ⟨m', hok, hall, hmapped⟩ | ⟨⟨e, herror⟩, _⟩
  · cases hm.symm.trans hok
    have hunique : forall entries, Reports t.Flows entries -> entries.text = m.text := by
      intro entries hentries
      rw [hentries.unique (uniform_isInput t) (fun _ _ hab => ⟨hab.1, hab.2.1⟩) hmapped.reports]
    refine ⟨?_, ?_, hunique⟩
    · rcases exists_byteMap_of_same hheaders hnodes htaints interval' hall with ⟨m', hok', hreports⟩
      exact ⟨m', hok', hunique m' hreports⟩
    · exact ⟨m.map Prod.fst, m.map lineOf, hmapped.pairwise_inputs,
        fun a => hmapped.mem_inputs_iff, hmapped.lines, text_eq_flatten m, hmapped.lines_text⟩
  · cases hm.symm.trans herror

/-- Two bytes of a file that flow to the same output, with a label that mixes them. -/
def twine : Trace where
  headers := [⟨"in", 3, 1, 3⟩, ⟨"out", 4, 0, 0⟩]
  labelCount := 4
  sinks := []
  taints := [⟨1, 7, 3⟩, ⟨1, 2, 1⟩]
  decode := fun l =>
    match l.toNat with
    | 1 => .ok ⟨.source 0 0, false⟩
    | 2 => .ok ⟨.source 0 1, false⟩
    | 3 => .ok ⟨.union 2 1, false⟩
    | _ => .error ⟨l, 3⟩

/-- The same with the output taints the other way round, one of them twice. -/
def untwined : Trace :=
  { twine with taints := [⟨1, 2, 1⟩, ⟨1, 7, 3⟩, ⟨1, 2, 1⟩] }

theorem byteMap_twine : ((twine.byteMap 0).run twine).2 =
    .ok [(⟨⟨0, "in"⟩, 0⟩, [⟨⟨1, "out"⟩, 2⟩, ⟨⟨1, "out"⟩, 7⟩]),
      (⟨⟨0, "in"⟩, 1⟩, [⟨⟨1, "out"⟩, 7⟩])] := by
  cbv

theorem byteMap_text_canonical_twine :
    untwined.headers = twine.headers ∧ untwined.decode = twine.decode ∧
    (forall o, o ∈ untwined.taints <-> o ∈ twine.taints) ∧
    (exists m, ((twine.byteMap 0).run twine).2 = .ok m) ∧
    exists m, ((untwined.byteMap 5).run untwined).2 = .ok m ∧
      m.text = Text.ofLines ["in[0] -> out[2], out[7]", "in[1] -> out[7]"] := by
  have htaints : forall o, o ∈ untwined.taints <-> o ∈ twine.taints := by
    intro o
    simp only [untwined, twine, List.mem_cons, List.not_mem_nil, or_false]
    rw [or_left_comm, or_self]
  rcases (byteMap_text_canonical twine untwined rfl rfl htaints 0 5 _ byteMap_twine).1 with
    ⟨m, hok, htext⟩
  exact ⟨rfl, rfl, htaints, ⟨_, byteMap_twine⟩, m, hok, htext.trans (by decide +kernel)⟩

end Trace
end TaintTrace
