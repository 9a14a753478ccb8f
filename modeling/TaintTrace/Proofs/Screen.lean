import Mathlib
import TaintTrace.Proofs.History
import TaintTrace.Proofs.Mapping
import TaintTrace.Proofs.PrintableLine
import TaintTrace.Proofs.Statistics

/-!
# What a session shows

The names of the files of a trace can be any bytes.  The list of files quotes them, but
the other commands that name a file show its name as it is, also in what they say when
they fail.  So what a session shows is harmless to a terminal exactly if the names are,
and so are the places the session was started with.
-/

namespace TaintTrace

open Text

/-!
## Names and faults
-/

def Trace.NamesHarmless (t : Trace) : Prop :=
  forall h, h ∈ t.headers -> Harmless h.name

/-- An outcome whose answer has a property, or whose fault is harmless to read. -/
def Readable {α : Type} (P : α -> Prop) : Except Fault α -> Prop
  | .ok a => P a
  | .error e => Harmless e.message

@[simp]
theorem harmless_invalidLabel (e : InvalidLabel) : Harmless e.message := by
  simp +decide [InvalidLabel.message]

@[simp]
theorem harmless_nodeText (n : Node) : Harmless n.text := by
  unfold Node.text
  cases n.origin <;> cases n.controlFlow <;> simp +decide

theorem harmless_byteOffset {b : ByteOffset} (h : Harmless b.file.path) : Harmless b.text := by
  simp +decide [ByteOffset.text, h]

theorem harmless_within {context : Context} {e : Fault} (hcontext : Harmless context.text)
    (he : Harmless e.message) : Harmless (Fault.within context e).message := by
  simp +decide [Fault.message, hcontext, he]

theorem harmless_colouredLine {colour t : Text} (hcolour : colour ∈ colours) (h : Harmless t) :
    Harmless (colour ++ t ++ Session.reset ++ ("\n" : Text)) := by
  have hbegin : Harmless colour := harmless_of_mem_colours hcolour
  have hreset : Harmless Session.reset := harmless_of_mem_colours (by simp [colours])
  simp +decide [hbegin, hreset, h]

theorem harmless_errorLine {t : Text} (h : Harmless t) : Harmless (Session.errorLine t) :=
  harmless_colouredLine (by simp [colours]) h

theorem harmless_successLine {t : Text} (h : Harmless t) : Harmless (Session.successLine t) :=
  harmless_colouredLine (by simp [colours]) h

namespace Trace

variable {t : Trace}

theorem NamesHarmless.path (h : t.NamesHarmless) {i : Input} (hi : t.IsInput i) :
    Harmless i.path := by
  rcases hi with ⟨k, header, hheader, rfl⟩
  exact h header (List.mem_of_getElem? hheader)

theorem isInput_of_getElem? {k : Nat} {i : Input} (h : t.inputs[k]? = some i) :
    t.IsInput i := by
  unfold inputs at h
  rw [List.getElem?_mapIdx, Option.map_eq_some_iff] at h
  rcases h with ⟨header, hheader, rfl⟩
  exact ⟨k, header, hheader, rfl⟩

theorem input_readable (t : Trace) (id : Int) : Readable t.IsInput (t.input id) := by
  unfold input
  split
  · rename_i hinput
    exact (input?_eq_some_iff.mp hinput).1
  · simp +decide [Readable, Fault.message]

/-!
## The map of bytes
-/

theorem harmless_sources_fault (nodes : Label -> Except InvalidLabel Node) (root : Label)
    {e : Fault} (h : ((Lookup.sources root).answer nodes).2 = some e) : Harmless e.message := by
  rcases Sources.sources_cases nodes root with ⟨found, hanswer, _⟩ | ⟨found, m, cause, hanswer, _⟩
  · rw [hanswer] at h
    cases h
  · rw [hanswer] at h
    cases h
    unfold Sources.faultAt
    split
    · exact harmless_invalidLabel cause
    · apply harmless_within
      · simp +decide [Context.text]
      · exact harmless_invalidLabel cause

theorem sourceBytes_readable (t : Trace) (found : List FoundSource) :
    Readable (fun _ => True) (t.sourceBytes found) := by
  induction found with
  | nil => exact trivial
  | cons s found ih =>
      rw [sourceBytes]
      have hinput := input_readable t s.file.toNat
      cases hfile : t.input s.file.toNat with
      | error e =>
          rw [hfile] at hinput
          exact hinput
      | ok file =>
          cases hrest : t.sourceBytes found with
          | error e =>
              rw [hrest] at ih
              exact ih
          | ok bytes => exact trivial

theorem taintSources_readable (t : Trace) (l : Label) :
    Readable (fun _ => True) ((t.taintSources l).run t) := by
  unfold taintSources Lookup.run
  rw [Lookup.answer_bind]
  rcases hanswer : (Lookup.sources l).answer t.decode with ⟨found, fault⟩
  cases fault with
  | none => exact sourceBytes_readable t found
  | some e => exact harmless_sources_fault t.decode l (congrArg Prod.snd hanswer)

theorem taintPairs_readable (ht : t.NamesHarmless) (done : Nat) (taints : List OutputTaint)
    (pairs : List (ByteOffset × ByteOffset)) :
    Readable (fun _ => True) ((t.taintPairs done taints pairs).run t).2 := by
  induction taints generalizing done pairs with
  | nil => exact trivial
  | cons o taints ih =>
      rw [taintPairs]
      have hinput := input_readable t o.output
      cases hfile : t.input o.output with
      | error e =>
          rw [hfile] at hinput
          exact harmless_within (by simp +decide [Context.text]) hinput
      | ok file =>
          rw [hfile] at hinput
          have hsources := taintSources_readable t o.label
          dsimp only
          rw [Lookup.run_bind]
          cases hbytes : (t.taintSources o.label).run t with
          | error e =>
              rw [hbytes] at hsources
              apply harmless_within _ hsources
              have hbyte : Harmless (ByteOffset.mk file o.offset).text :=
                harmless_byteOffset (ht.path hinput)
              simp +decide [Context.text, hbyte]
          | ok bytes => exact ih _ _

theorem byteMap_readable (ht : t.NamesHarmless) (interval : Int) :
    Readable t.Mapped ((t.byteMap interval).run t).2 := by
  rcases byteMap_cases t interval with ⟨m, hok, _, hmapped⟩ | ⟨⟨e, herror⟩, _⟩
  · rw [hok]
    exact hmapped
  · rw [herror]
    have hpairs := taintPairs_readable ht 0 t.taints []
    unfold byteMap at herror
    dsimp only at herror
    rw [Lookup.run_bind] at herror
    rcases hanswer : (t.taintPairs 0 t.taints []).run t with ⟨done, outcome⟩
    rw [hanswer] at herror hpairs
    cases outcome with
    | error e' =>
        cases herror
        exact hpairs
    | ok pairs => cases herror

end Trace

/-!
## The cavities
-/

namespace Cavities

variable {t : Trace} {nodes : Label -> Except InvalidLabel Node}

theorem harmless_unhinderedSources_fault (l : Label) (seen : LabelSet) {e : Fault}
    (h : ((Lookup.unhinderedSources l seen).answer nodes).fault = some e) :
    Harmless e.message := by
  unfold Lookup.unhinderedSources at h
  rw [Lookup.answer_bind] at h
  rcases Option.map_eq_some_iff.mp h with ⟨cause, _, rfl⟩
  apply harmless_within
  · simp +decide [Context.text]
  · exact harmless_invalidLabel cause

theorem harmless_sink {index : Nat} {e : Fault} (he : Harmless e.message) :
    Harmless (Fault.within (.sink index) e).message := by
  apply harmless_within _ he
  simp +decide [Context.text]

theorem markFlows_readable (h : Header) (index : Nat) (sinks : List Sink) (seen : LabelSet)
    (marks : Marks) :
    Readable (fun _ => True) ((markFlows h index sinks seen marks).answer nodes).2 := by
  induction sinks generalizing index seen marks with
  | nil => exact trivial
  | cons s sinks ih =>
      rw [markFlows, Lookup.answer_decode]
      cases nodes s.label with
      | error e => exact harmless_sink (harmless_invalidLabel e)
      | ok n =>
          dsimp only
          split
          · exact ih _ _ _
          · split
            · exact ih _ _ _
            · rw [Lookup.answer_bind]
              split
              · rename_i e hfault
                exact harmless_sink (harmless_unhinderedSources_fault _ _ hfault)
              · exact ih _ _ _

theorem ofHeader_readable (t : Trace) (options : CavityOptions) {h : Header}
    (hname : Harmless h.name) :
    Readable (fun cs => forall c, c ∈ cs -> c.path = h.name)
      ((ofHeader t options h).run t).2 := by
  unfold ofHeader
  split
  · intro c hc
    cases hc
  · split
    · apply harmless_within
      · simp +decide [Context.text, hname]
      · exact harmless_invalidLabel _
    · dsimp only
      rw [Lookup.run_bind]
      split
      · apply harmless_within
        · simp +decide [Context.text]
        · exact harmless_invalidLabel _
      · rename_i marks _
        rw [Lookup.run_bind]
        have hflows : Readable (fun _ => True)
            ((markFlows h 0 t.sinks (LabelSet.withRoom t.labelCount) marks).run t).2 :=
          markFlows_readable h 0 t.sinks _ marks
        rcases hanswer :
            (markFlows h 0 t.sinks (LabelSet.withRoom t.labelCount) marks).run t with
          ⟨begun, outcome⟩
        rw [hanswer] at hflows
        cases outcome with
        | error e => exact hflows
        | ok marks =>
            intro c hc
            rcases List.mem_map.mp hc with ⟨r, _, rfl⟩
            rfl

theorem ofHeaders_readable (t : Trace) (options : CavityOptions) (hs : List Header) (log : Log)
    {found : Except Fault (List Cavity)} (hhs : forall h, h ∈ hs -> Harmless h.name)
    (hfound : Readable (fun cs => forall c, c ∈ cs -> Harmless c.path) found) :
    Readable (fun cs => forall c, c ∈ cs -> Harmless c.path)
      ((ofHeaders t options hs log found).run t).2 := by
  induction hs generalizing log found with
  | nil => exact hfound
  | cons h hs ih =>
      rw [List.forall_mem_cons] at hhs
      rw [ofHeaders]
      split
      · exact ih _ hhs.2 hfound
      · rw [Lookup.run_bind]
        have halone := ofHeader_readable t options hhs.1
        generalize (ofHeader t options h).run t = answer at halone ⊢
        rcases answer with ⟨messages, outcome⟩
        apply ih _ hhs.2
        cases found with
        | error e => exact hfound
        | ok cs =>
            cases outcome with
            | error e =>
                apply harmless_within _ halone
                simp +decide [Context.text, hhs.1]
            | ok more =>
                intro c hc
                rcases List.mem_append.mp hc with hc | hc
                · exact hfound c hc
                · rw [halone c hc]
                  exact hhs.1

theorem cavities_readable {t : Trace} (ht : t.NamesHarmless) (options : CavityOptions) :
    Readable (fun cs => forall c, c ∈ cs -> Harmless c.path)
      ((t.cavities options).run t).2 := by
  apply ofHeaders_readable t options t.headers [] ht
  intro c hc
  cases hc

end Cavities

/-!
## Commands
-/

namespace CommandName

def showsNames : CommandName -> Bool
  | cavities | info | mapping | node | sinks | sources => true
  | exit | files | help | state | tree => false

@[simp]
theorem harmless_text (name : CommandName) : Harmless name.text := by
  cases name <;> exact harmless_ofString (by decide)

end CommandName

namespace Command

theorem harmless_readLabel_fault {word : Text} {e : ArgumentFault}
    (h : readLabel word = .error e) : Harmless e.message := by
  have hinvalid : e = .invalidLabel word := by
    unfold readLabel at h
    split at h
    · split at h
      · cases h
        rfl
      · cases h
    · cases h
      rfl
  simp +decide [hinvalid, ArgumentFault.message]

theorem harmless_label_fault {c : Command} {position : Nat} {e : ArgumentFault}
    (hname : Harmless c.name) (h : c.label position = .error e) : Harmless e.message := by
  unfold label at h
  split at h
  · cases h
    simp +decide [ArgumentFault.message, hname]
  · exact harmless_readLabel_fault h

theorem harmless_count_fault {c : Command} {name : Text} {e : ArgumentFault}
    (hname : Harmless name) (h : c.count name = .error e) : Harmless e.message := by
  unfold count at h
  split at h
  · cases h
  · split at h
    · cases h
    · cases h
      simp +decide [ArgumentFault.message, hname]

end Command

namespace Session

variable {s : Session} {t : Trace} {nodes : Label -> Except InvalidLabel Node}

theorem harmless_helpLine (name : CommandName) {args help : Text} (hargs : Harmless args)
    (hhelp : Harmless help) : Harmless (helpLine name args help) := by
  have hblue : Harmless blue := harmless_of_mem_colours (by simp [colours])
  have hreset : Harmless reset := harmless_of_mem_colours (by simp [colours])
  unfold helpLine
  dsimp only
  split
  · simp +decide [hblue, hreset, hhelp]
  · simp +decide [hblue, hreset, hhelp, hargs]

theorem harmless_help : Harmless help := by
  apply Harmless.append (harmless_ofString (by decide))
  apply harmless_flatMap
  intro name _
  cases name with
  | cavities | mapping | node | sinks | tree =>
      exact harmless_helpLine _ (harmless_ofString (by decide)) (harmless_ofString (by decide))
  | exit | files | help | info | state =>
      exact harmless_helpLine _ .nil (harmless_ofString (by decide))
  | sources =>
      refine .append (.append ?_ (harmless_ofString (by decide))) (harmless_ofString (by decide))
      exact harmless_helpLine _ (harmless_ofString (by decide)) (harmless_ofString (by decide))

theorem harmless_files (s : Session) : Harmless s.files.output := by
  apply harmless_flatten
  intro line hline
  rcases List.mem_mapIdx.mp hline with ⟨i, _, rfl⟩
  simp +decide

theorem harmless_nodeLine (ht : t.NamesHarmless) (l : Label) (n : Node) :
    Harmless (nodeLine t l n) := by
  unfold nodeLine
  dsimp only
  split
  · split
    · rename_i i hi
      have hpath := ht.path (Trace.isInput_of_getElem? hi)
      simp +decide [hpath]
    · simp +decide
  · simp +decide

theorem harmless_nodeLines (ht : t.NamesHarmless) (words : List Text) {shown : Text}
    (hshown : Harmless shown) : Harmless ((nodeLines t words shown).answer nodes) := by
  induction words generalizing shown with
  | nil => exact hshown
  | cons word words ih =>
      rw [nodeLines]
      split
      · rename_i e he
        exact ih (hshown.append (harmless_errorLine (Command.harmless_readLabel_fault he)))
      · rename_i l _
        rw [Lookup.answer_decode]
        cases nodes l with
        | error e => exact ih (hshown.append (harmless_errorLine (harmless_invalidLabel e)))
        | ok n => exact ih (hshown.append (harmless_nodeLine ht l n))

theorem harmless_node (hs : s.Faithful) (ht : s.trace.NamesHarmless) (c : Command) :
    Harmless (s.node c).output := by
  unfold node
  split
  · exact harmless_errorLine (harmless_ofString (by decide))
  · rw [hs.look]
    exact harmless_nodeLines ht c.args .nil

theorem harmless_sourcesText (ht : t.NamesHarmless) (width : Int) (found : List FoundSource) :
    Harmless (sourcesText t width found) := by
  unfold sourcesText
  apply Harmless.append
  · split
    · exact .nil
    · apply harmless_errorLine
      refine .append (.append (harmless_ofString (by decide)) ?_) (harmless_ofString (by decide))
      apply harmless_join (harmless_ofString (by decide))
      intro label hlabel
      rcases List.mem_map.mp hlabel with ⟨l, _, rfl⟩
      exact harmless_label l
  · split
    · exact harmless_successLine (harmless_ofString (by decide))
    · apply harmless_ofLines_iff.mpr
      intro line hline
      refine harmless_of_mem_layout (harmless_ofString (by decide)) ?_ hline
      intro cell hcell
      rcases List.mem_map.mp hcell with ⟨b, hb, rfl⟩
      apply harmless_byteOffset
      rw [ByteMap.sortBytes, List.mem_mergeSort] at hb
      rcases List.mem_filterMap.mp hb with ⟨f, _, hf⟩
      rcases Option.map_eq_some_iff.mp hf with ⟨i, hi, rfl⟩
      exact ht.path (Trace.input?_eq_some_iff.mp hi).1

theorem sources_readable (t : Trace) (l : Label) (passing : Bool) :
    Readable (fun _ => True) ((if passing then unhindered t l else allSources l).run t) := by
  split
  · unfold unhindered
    rw [Lookup.run_bind]
    split
    · rename_i e hfault
      exact Cavities.harmless_unhinderedSources_fault _ _ hfault
    · rw [Lookup.run_bind]
      exact trivial
  · unfold allSources
    rw [Lookup.run_bind]
    split
    · rename_i e hanswer
      exact Trace.harmless_sources_fault t.decode l (congrArg Prod.snd hanswer)
    · exact trivial

theorem harmless_sources (hs : s.Faithful) (ht : s.trace.NamesHarmless) {c : Command}
    (hname : Harmless c.name) : Harmless (s.sources c).output := by
  unfold sources
  split
  · rename_i e he
    exact harmless_errorLine (Command.harmless_label_fault hname he)
  · rename_i l _
    dsimp only
    rw [hs.look]
    have hfound := sources_readable s.trace l (c.hasFlag "nocf")
    split
    · rename_i e he
      rw [he] at hfound
      exact harmless_errorLine hfound
    · exact harmless_sourcesText ht _ _

theorem harmless_sinks (ht : s.trace.NamesHarmless) (c : Command) :
    Harmless (s.sinks c).output := by
  unfold sinks
  split
  · rename_i e he
    exact harmless_errorLine (Command.harmless_count_fault (harmless_ofString (by decide)) he)
  · dsimp only
    apply Harmless.append
    · apply harmless_flatMap
      intro sink _
      unfold sinkLine
      dsimp only
      split
      · rename_i i hi
        have hpath := ht.path (Trace.isInput_of_getElem? hi)
        simp +decide [hpath]
      · simp +decide
    · split
      · simp +decide
      · exact .nil

theorem harmless_treeLines (visits : List LabelTree.Visit) {shown : Text}
    (hshown : Harmless shown) (fault : Option InvalidLabel) :
    Harmless ((treeLines visits shown fault).answer nodes).1 := by
  induction visits generalizing shown fault with
  | nil => exact hshown
  | cons v visits ih =>
      rw [treeLines, Lookup.answer_decode]
      cases nodes v.label with
      | error e => exact ih hshown _
      | ok n =>
          apply ih
          simp +decide [hshown, harmless_spaces]

theorem harmless_treeText (l : Label) (depth : Nat) :
    Harmless ((treeText l depth).answer nodes) := by
  unfold treeText
  rw [Lookup.answer_bind]
  split
  · exact harmless_errorLine (harmless_invalidLabel _)
  · rename_i tree complete _
    rw [Lookup.answer_bind]
    dsimp only
    refine .append (.append (harmless_treeLines tree.walk .nil none) ?_) ?_
    · cases ((treeLines tree.walk [] none).answer nodes).2 with
      | none => exact .nil
      | some e => exact harmless_errorLine (harmless_invalidLabel e)
    · split
      · exact .nil
      · apply harmless_errorLine
        simp +decide

theorem harmless_tree (hs : s.Faithful) {c : Command} (hname : Harmless c.name) :
    Harmless (s.tree c).output := by
  unfold tree
  split
  · rename_i e he
    exact harmless_errorLine (Command.harmless_label_fault hname he)
  · rename_i e he _
    exact harmless_errorLine (Command.harmless_count_fault (harmless_ofString (by decide)) he)
  · rw [hs.look]
    exact harmless_treeText _ _

theorem harmless_cavityLines (selects : Text -> Bool) {found : Except Fault (List Cavity)}
    (h : Readable (fun cs => forall c, c ∈ cs -> Harmless c.path) found) :
    Harmless (cavityLines selects found) := by
  unfold cavityLines
  split
  · rename_i e
    apply harmless_errorLine
    have he : Harmless e.message := h
    simp +decide [he]
  · rename_i all
    dsimp only
    split
    · exact harmless_successLine (harmless_ofString (by decide))
    · apply harmless_flatMap
      intro c hc
      have hpath : Harmless c.path := h c (List.mem_of_mem_filter hc)
      simp +decide [Cavity.text, hpath]

theorem harmless_listCavities (hs : s.Faithful) (ht : s.trace.NamesHarmless) {c : Command}
    (hargs : forall w, w ∈ c.args -> w.Printable) : Harmless (s.listCavities c).output := by
  unfold listCavities
  dsimp only
  split
  · rename_i message hfilter
    apply harmless_errorLine
    split at hfilter
    · cases hfilter
    · rename_i word _ hwords
      split at hfilter
      · cases hfilter
      · rename_i e he
        cases hfilter
        have hword : word.Printable := hargs word (hwords ▸ List.mem_cons_self)
        have hmessage := Pattern.harmless_message_of_read_eq_error hword he
        simp +decide [hmessage]
  · dsimp only
    rw [hs.withCavities]
    exact harmless_cavityLines _ (Cavities.cavities_readable ht _)

theorem harmless_flowLine (ht : t.NamesHarmless) {b : ByteOffset} (hb : Harmless b.file.path)
    {found : Except Fault ByteMap} (h : Readable t.Mapped found) :
    Harmless (flowLine b found) := by
  have hbyte := harmless_byteOffset hb
  unfold flowLine
  split
  · rename_i e
    apply harmless_errorLine
    have he : Harmless e.message := h
    simp +decide [he]
  · rename_i m
    split
    · apply harmless_successLine
      simp +decide [hbyte]
    · have houtputs : Harmless (join ", " (((m.lookup b).getD []).map ByteOffset.text)) := by
        apply harmless_join (harmless_ofString (by decide))
        intro output houtput
        rcases List.mem_map.mp houtput with ⟨o, ho, rfl⟩
        apply harmless_byteOffset
        cases hlookup : m.lookup b with
        | none =>
            rw [hlookup] at ho
            cases ho
        | some outs =>
            rw [hlookup] at ho
            rcases List.lookup_eq_some_iff.mp hlookup with ⟨before, after, hm, _⟩
            have hmem : (b, outs) ∈ m := by
              rw [hm]
              exact List.mem_append_right before List.mem_cons_self
            exact ht.path ((h.flows b o).mp ⟨outs, hmem, ho⟩).2.1
      simp +decide [hbyte, houtputs]

theorem harmless_showMapping (hs : s.Faithful) (ht : s.trace.NamesHarmless) (c : Command) :
    Harmless (s.showMapping c).output := by
  unfold showMapping
  split
  · split
    · apply harmless_errorLine
      simp +decide
    · rename_i id _
      split
      · apply harmless_errorLine
        simp +decide
      · have hinput := Trace.input_readable s.trace id
        split
        · rename_i e he
          rw [he] at hinput
          exact harmless_errorLine hinput
        · rename_i i hi
          rw [hi] at hinput
          have hpath : Harmless i.path := ht.path hinput
          dsimp only
          rw [hs.withByteMap]
          exact harmless_flowLine ht hpath (Trace.byteMap_readable ht _)
  · exact harmless_errorLine (harmless_ofString (by decide))

/-!
## Reports and the state

The report on a trace shows the name of every file, and the state of a session shows its
places, so they are harmless only if these are.
-/

theorem harmless_fileLine_iff (index : Nat) (f : FileStatistics) :
    Harmless (Statistics.fileLine index f) <-> Harmless f.header.name := by
  have hcolon : (": " : Text) = 0x3a :: (" " : Text) := by decide
  unfold Statistics.fileLine
  simp only [hcolon, List.append_assoc, List.cons_append]
  rw [harmless_append_iff (harmless_ofString (by decide)), harmless_append_iff (harmless_ofNat _),
    harmless_append_iff (harmless_ofString (by decide)), harmless_cut_iff rfl (by decide)]
  apply and_iff_left
  simp +decide

theorem harmless_nodesByKind {st : Statistics} {kind : Text} {n : Nat}
    (h : (kind, n) ∈ st.nodesByKind) : Harmless kind := by
  have hkind := List.mem_of_mem_filter h
  simp only [List.mem_cons, Prod.mk.injEq, List.not_mem_nil, or_false] at hkind
  rcases hkind with ⟨rfl, _⟩ | ⟨rfl, _⟩ | ⟨rfl, _⟩ <;> exact harmless_ofString (by decide)

theorem harmless_filesByKind {st : Statistics} {kind : Text} {n : Nat}
    (h : (kind, n) ∈ st.filesByKind) : Harmless kind := by
  have hkind := List.mem_of_mem_filter h
  simp only [List.mem_cons, Prod.mk.injEq, List.not_mem_nil, or_false] at hkind
  rcases hkind with ⟨rfl, _⟩ | ⟨rfl, _⟩ <;> exact harmless_ofString (by decide)

theorem harmless_statistics_iff {st : Statistics} :
    Harmless (ofLines st.lines) <-> forall f, f ∈ st.files -> Harmless f.header.name := by
  rw [harmless_ofLines_iff]
  constructor
  · intro h f hf
    rcases List.getElem_of_mem hf with ⟨i, hi, rfl⟩
    rw [← harmless_fileLine_iff i]
    apply h
    have hline : Statistics.fileLine i (st.files[i]) ∈ st.files.mapIdx Statistics.fileLine :=
      List.mem_mapIdx.mpr ⟨i, hi, rfl⟩
    simp [Statistics.lines, hline]
  · intro h
    unfold Statistics.lines
    simp only [List.forall_mem_append, List.forall_mem_cons]
    refine ⟨⟨⟨⟨⟨⟨⟨?_, ?_⟩, ?_⟩, ?_, ?_, ?_⟩, ?_⟩, ?_, ?_⟩, ?_⟩, ?_, ?_, ?_⟩
    · simp +decide
    · simp
    · intro line hline
      rcases List.mem_map.mp hline with ⟨⟨kind, n⟩, hkind, rfl⟩
      have hname := harmless_nodesByKind hkind
      simp +decide [hname]
    · simp +decide
    · simp +decide
    · simp
    · split
      · simp +decide
      · simp
    · apply Harmless.append
      · simp +decide
      · apply harmless_flatMap
        intro entry hentry
        have hname := harmless_filesByKind hentry
        simp +decide [hname]
    · simp
    · intro line hline
      rcases List.mem_mapIdx.mp hline with ⟨i, hi, rfl⟩
      exact (harmless_fileLine_iff i _).mpr (h _ (List.getElem_mem hi))
    · simp +decide
    · simp +decide
    · simp

theorem harmless_info_iff (hs : s.Faithful) :
    Harmless s.info.output <-> s.trace.NamesHarmless := by
  unfold info
  rw [hs.look, harmless_statistics_iff, (Statistics.counts_statistics s.trace).files]
  constructor
  · intro h header hheader
    rcases List.getElem_of_mem hheader with ⟨i, hi, rfl⟩
    exact h _ (List.mem_mapIdx.mpr ⟨i, hi, rfl⟩)
  · intro h f hf
    rcases List.mem_mapIdx.mp hf with ⟨i, hi, rfl⟩
    exact h _ (List.getElem_mem hi)

def places (s : Session) : List Text :=
  [s.tracePath, s.configPath, s.workingDirectory]

theorem Step.places {s s' : Session} (step : Step s s') : s'.places = s.places := by
  cases step with
  | same => rfl
  | looked p => rfl
  | cavities =>
      unfold withCavities
      split
      · rfl
      · rfl
  | byteMap =>
      unfold withByteMap
      split
      · rfl
      · rfl

theorem harmless_field_iff {name : String} (hname : isPlainString name = true)
    {value rest : Text} :
    Harmless (ofString name ++ (value ++ (("\n" : Text) ++ rest))) <->
      Harmless value ∧ Harmless rest := by
  rw [harmless_append_iff (harmless_ofString hname)]
  exact harmless_cut_iff rfl (by decide)

theorem harmless_state_iff (s : Session) :
    Harmless s.state.output <-> forall p, p ∈ s.places -> Harmless p := by
  have hconfig : Harmless (if s.configPath.isEmpty then ("none (default options)" : Text)
      else s.configPath) <-> Harmless s.configPath := by
    split
    · rename_i hempty
      rw [List.isEmpty_iff.mp hempty]
      exact iff_of_true (harmless_ofString (by decide)) .nil
    · rfl
  unfold state reply places
  simp only [List.append_assoc]
  rw [harmless_field_iff (by decide), harmless_field_iff (by decide),
    harmless_field_iff (by decide), hconfig]
  simp only [List.forall_mem_cons, List.not_mem_nil, false_implies, implies_true, and_true]
  refine and_congr_right' (and_congr_right' (and_iff_left ?_))
  cases s.cavities <;> cases s.reader.cache <;> simp +decide

theorem harmless_perform (hs : s.Faithful) {name : CommandName} {c : Command}
    (hname : c.name = name.text) (hargs : forall w, w ∈ c.args -> w.Printable)
    (hnames : name.showsNames = true -> s.trace.NamesHarmless)
    (hplaces : forall p, p ∈ s.places -> Harmless p) : Harmless (s.perform name c).output := by
  have hcommand : Harmless c.name := hname ▸ name.harmless_text
  cases name with
  | cavities => exact harmless_listCavities hs (hnames rfl) hargs
  | exit => exact .nil
  | files => exact harmless_files s
  | help => exact harmless_help
  | info => exact (harmless_info_iff hs).mpr (hnames rfl)
  | mapping => exact harmless_showMapping hs (hnames rfl) c
  | node => exact harmless_node hs (hnames rfl) c
  | sinks => exact harmless_sinks (hnames rfl) c
  | sources => exact harmless_sources hs (hnames rfl) hcommand
  | state => exact (harmless_state_iff s).mpr hplaces
  | tree => exact harmless_tree hs hcommand

/-- What a line of printable characters is answered with is harmless, if the places of the
session are and the names of the files are or are not shown as they are. -/
theorem harmless_interpret (hs : s.Faithful) {line : Text} (hline : line.Printable)
    (hnames : forall name, CommandName.ofText? (Command.ofLine line).name = some name ->
      name.showsNames = true -> s.trace.NamesHarmless)
    (hplaces : forall p, p ∈ s.places -> Harmless p) : Harmless (s.interpret line).output := by
  unfold interpret
  dsimp only
  split
  · exact .nil
  · split
    · rename_i name hname
      apply harmless_perform hs (text_of_ofText? hname).symm _ (hnames name hname) hplaces
      intro w hw
      exact Command.printable_of_mem_args hline hw
    · apply Harmless.append _ harmless_help
      apply harmless_errorLine
      simp +decide

/-- A line of printable characters cannot make a session show control sequences of its own,
but the names of files can.  After any lines, every such line has a harmless answer exactly
if the names of all files and the places of the session are harmless.  The commands that
show no names, or quote them, have harmless answers whatever the names are. -/
theorem answers_harmless_iff (s : Session) (lines : List Text) (hs : s.Fresh) :
    ((forall line, line.Printable ->
        Harmless (onTerminal ((s.after lines).interpret line).output)) <->
      s.trace.NamesHarmless ∧ forall p, p ∈ s.places -> Harmless p) ∧
    ((forall p, p ∈ s.places -> Harmless p) -> forall line, line.Printable ->
      (forall name, CommandName.ofText? (Command.ofLine line).name = some name ->
        name.showsNames = false) ->
      Harmless (onTerminal ((s.after lines).interpret line).output)) := by
  rcases hs.faithful.after lines with ⟨hfaithful, hkept⟩
  have hplaces : (s.after lines).places = s.places :=
    after_induction (P := fun s' => s'.places = s.places)
      (fun _ _ step h => step.places.trans h) rfl lines
  simp only [harmless_onTerminal_iff]
  rw [← hplaces, ← hkept.trace]
  constructor
  · constructor
    · intro h
      constructor
      · rw [← harmless_info_iff hfaithful]
        exact h "info" (by decide)
      · rw [← harmless_state_iff]
        exact h "state?" (by decide)
    · intro h line hline
      exact harmless_interpret hfaithful hline (fun _ _ _ => h.1) h.2
  · intro hclean line hline hquoted
    apply harmless_interpret hfaithful hline _ hclean
    intro name hname hshows
    rw [hquoted name hname] at hshows
    cases hshows

def wiper : Trace where
  headers := [⟨"\x1b[2J", 3, 1, 2⟩]
  labelCount := 2
  sinks := []
  taints := []
  decode := fun l => if l = 1 then .ok (Node.source 0 0) else .error ⟨l, 1⟩

theorem answers_harmless_iff_relay_wiper :
    Harmless (onTerminal (((⟨"a.tdag", [], "/", .default, 80, ⟨relay, some ⟨1, []⟩⟩, none, none⟩ :
      Session).after ["cavities", "exit"]).interpret "cavities 'a(b'").output) ∧
    Harmless (onTerminal (((⟨"a.tdag", [], "/", .default, 80, ⟨wiper, none⟩, none, none⟩ :
      Session).after ["info"]).interpret "files").output) := by
  have hplaces : forall p, p ∈ [("a.tdag" : Text), [], "/"] -> Harmless p := by
    simp +decide [Harmless.nil]
  constructor
  · have hfresh : Fresh ⟨"a.tdag", [], "/", .default, 80, ⟨relay, some ⟨1, []⟩⟩, none, none⟩ :=
      fresh_of_empty (by simp) rfl rfl
    apply (answers_harmless_iff _ ["cavities", "exit"] hfresh).1.mpr
    · refine ⟨?_, hplaces⟩
      intro h hh
      rcases List.mem_pair.mp hh with rfl | rfl <;> exact harmless_ofString (by decide)
    · decide
  · have hfresh : Fresh ⟨"a.tdag", [], "/", .default, 80, ⟨wiper, none⟩, none, none⟩ :=
      fresh_of_empty (by simp) rfl rfl
    apply (answers_harmless_iff _ ["info"] hfresh).2 hplaces
    · decide
    · intro name hname
      have hfiles : name = .files := Option.some.inj hname.symm
      rw [hfiles]
      rfl

theorem not_harmless_clear : ¬ Harmless "\x1b[2J" := by
  have hbytes : ("\x1b[2J" : Text) = [0x1b, 0x5b, 0x32, 0x4a] := by decide
  rw [hbytes]
  intro h
  generalize hu : ([0x1b, 0x5b, 0x32, 0x4a] : Text) = u at h
  cases h with
  | nil => cases hu
  | byte hb _ =>
      cases hu
      cases hb
  | colour hc _ => rcases mem_colours_iff.mp hc with rfl | rfl | rfl | rfl <;> simp at hu

/-- The report on a trace clears the screen, if a file is named so. -/
theorem info_shows_control_sequence :
    ¬ Harmless (onTerminal ((⟨"a.tdag", [], "/", .default, 80, ⟨wiper, none⟩, none, none⟩ :
      Session).interpret "info").output) := by
  have hfresh : Fresh ⟨"a.tdag", [], "/", .default, 80, ⟨wiper, none⟩, none, none⟩ :=
    fresh_of_empty (by simp) rfl rfl
  rw [harmless_onTerminal_iff]
  intro h
  have hnames := (harmless_info_iff hfresh.faithful).mp h
  exact not_harmless_clear (hnames _ List.mem_cons_self)

end Session
end TaintTrace
